import RegisterMap.Proofs.AddressTemplate
import RegisterMap.Proofs.Fragment.Readable
import RegisterMap.Proofs.Placement

/-!
# Locations written and read back

A register has one location for reading and writing, or two that come of an address template. Either
way the entry for its locations is read back as these. The slot is written under the key of an
index, which does not locate the register then, since it stands beside an address.
-/

namespace RegisterMap

variable {d : Description} {t : Table} {kind : LocationKind}

namespace Placement

/-- The locations that the key of a location kind can give. -/
inductive Given (d : Description) (kind : LocationKind) : Placement → Prop
  | same {n : Int} (hnonneg : 0 ≤ n) (hbound : n ≤ bound d kind) : Given d kind (same kind n)
  | template {text : String} {read write : Nat} (hkind : kind ≠ .index)
    (hextension : d.extension = some .vga)
    (hexpand : AddressTemplate.expand text = .ok (read, write))
    (hfault : addressFault? d [read, write] = none) :
    Given d kind ⟨⟨kind, read⟩, ⟨kind, write⟩⟩

/-- What a key gives can be given. -/
lemma given_of_ofKey {p : Placement} (h : ofKey d t kind = .valid p) : Given d kind p := by
  obtain ⟨_, _, hdenotes⟩ := ofKey_eq_valid_iff.mp h
  cases hdenotes with
  | number hnonneg hbound => exact .same hnonneg hbound
  | template hkind hextension hexpand hread hwrite =>
    rw [bound_of_ne_index d hkind] at hread hwrite
    exact .template hkind hextension hexpand (addressFault?_eq_none_iff.mpr ⟨hread, hwrite⟩)

/-- A number within bounds is read as the location of a register. -/
lemma ofKey_of_integer {n : Int} (hnonneg : 0 ≤ n) (hbound : n ≤ bound d kind)
    (hget : t.get? kind.key = some (.integer n)) : ofKey d t kind = .valid (same kind n) :=
  ofKey_eq_valid_iff.mpr ⟨_, hget, .number hnonneg hbound⟩

/-- A template is read as the locations that it gives. -/
lemma ofKey_of_text {text : String} {read write : Nat} (hkind : kind ≠ .index)
    (hextension : d.extension = some .vga)
    (hexpand : AddressTemplate.expand text = .ok (read, write))
    (hfault : addressFault? d [read, write] = none) (hget : t.get? kind.key = some (.text text)) :
    ofKey d t kind = .valid ⟨⟨kind, read⟩, ⟨kind, write⟩⟩ := by
  obtain ⟨hread, hwrite⟩ := addressFault?_eq_none_iff.mp hfault
  rw [← bound_of_ne_index d hkind] at hread hwrite
  exact ofKey_eq_valid_iff.mpr ⟨_, hget, .template hkind hextension hexpand hread hwrite⟩

/-! ### Slots -/

lemma slotFits_of_slot {slot : Int} (hslot : Placement.slot d t = .valid slot)
    (hkind : locatingKinds d t = [kind]) : SlotFits d kind slot := by
  have hread : (Placement.slot d t).optional? = some (some slot) := by
    rw [hslot]
    rfl
  obtain ⟨_, hfits⟩ := locatingKinds_eq_singleton_iff.mp ⟨hkind, hread⟩
  exact (hfits slot rfl).1

end Placement

/-! ### Entries for locations -/

namespace Fragment

open Placement

lemma isReadable_template {digits : List Char} {read write : Nat}
    (h : AddressTemplate.StandsFor digits read write) :
    Toml.IsReadable (.text ("0x" ++ String.ofList digits)) := by
  intro c hc
  have htext : ("0x" ++ String.ofList digits).toList = '0' :: 'x' :: digits := by simp
  rw [htext, List.mem_cons, List.mem_cons] at hc
  rcases hc with rfl | rfl | hc
  · exact .inl rfl
  · exact .inl rfl
  · rcases h.forall_mem c hc with rfl | hhex
    · exact .inl rfl
    · exact .inl (Toml.isPlain_of_isHexDigit hhex)

/-- The entry for given locations can be read, and it gives these locations. -/
lemma exists_locationEntry {r : Register}
    (h : Given d kind ⟨r.readLocation, r.writeLocation⟩) :
    ∃ literal, locationEntry r = .ok (kind.key, literal) ∧ Toml.IsReadable literal ∧
      ∀ t : Table, t.get? kind.key = some literal.value →
        ofKey d t kind = .valid ⟨r.readLocation, r.writeLocation⟩ := by
  obtain ⟨name, access, size, read, write, bitFields, enums, description, slot⟩ := r
  dsimp only at h ⊢
  cases h with
  | @same n hnonneg hbound =>
    by_cases hindex : kind = .index
    · refine ⟨.decimal n, ?_, hnonneg, fun t => ofKey_of_integer hnonneg hbound⟩
      simp [locationEntry, Register.isSplit, hindex]
    · refine ⟨.hexadecimal n, ?_, hnonneg, fun t => ofKey_of_integer hnonneg hbound⟩
      simp [locationEntry, Register.isSplit, hindex]
  | @template text read write hkind hextension hexpand hfault =>
    obtain ⟨hne, digits, hmade, hstands⟩ := AddressTemplate.exists_ofAddresses_of_expand hexpand
    have hback : AddressTemplate.expand ("0x" ++ String.ofList digits) = .ok (read, write) := by
      rwa [AddressTemplate.expand_eq_ok_iff, AddressTemplate.digits_eq hstands.forall_mem]
    refine ⟨.text ("0x" ++ String.ofList digits), ?_, isReadable_template hstands,
      fun t => ofKey_of_text hkind hextension hback hfault⟩
    have hsplit : ((⟨kind, read⟩ : Location) != ⟨kind, write⟩) = true := by simp [hne]
    rw [locationEntry, Register.isSplit, if_pos hsplit, hmade]
    rfl

end Fragment

end RegisterMap
