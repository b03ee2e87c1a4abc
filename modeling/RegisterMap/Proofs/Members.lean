import RegisterMap.Accessor.Module
import RegisterMap.Proofs.Name.Style
import RegisterMap.Proofs.NameScope

/-!
# Names of members

Documents are checked for names that agree in one style, and the members of generated classes are
named in another. They are different because both styles tell the same names apart, and because an
underscore that is added to avoid a fixed member gives no name of either style.
-/

namespace RegisterMap.Accessor

/-! ### Avoided names -/

/-- Names that are avoided by an underscore, beside fixed names: this gives neither another name in
snake case nor a fixed one, and a fixed name that is not avoided is no name in snake case. -/
structure Avoidable (taken fixed : List String) : Prop where
  free : ∀ t ∈ taken, t ++ "_" ∉ taken
  snake_ne : ∀ t ∈ taken, Name.snake (t ++ "_") ≠ t ++ "_"
  fixed_nodup : fixed.Nodup
  fixed_ne : ∀ s ∈ fixed, (s ∈ taken ∨ Name.snake s ≠ s) ∧ ∀ t ∈ taken, t ++ "_" ≠ s

namespace Avoidable

variable {taken fixed : List String}

lemma avoid_eq_or (h : Avoidable taken fixed) (name : String) :
    (name ∈ taken ∧ avoid taken name = name ++ "_") ∨ (name ∉ taken ∧ avoid taken name = name) := by
  by_cases hname : name ∈ taken
  · exact .inl ⟨hname, avoid_of_mem hname (h.free name hname)⟩
  · exact .inr ⟨hname, avoid_of_not_mem hname⟩

lemma avoid_snake_injective (h : Avoidable taken fixed) {a b : String}
    (heq : avoid taken (Name.snake a) = avoid taken (Name.snake b)) :
    Name.snake a = Name.snake b := by
  -- An underscore is added to one name only: it is then in no style that the other could be in.
  rcases h.avoid_eq_or (Name.snake a) with ⟨ha, ha'⟩ | ⟨_, ha'⟩ <;>
    rcases h.avoid_eq_or (Name.snake b) with ⟨hb, hb'⟩ | ⟨_, hb'⟩ <;>
    rw [ha', hb'] at heq
  · simpa using heq
  · exact absurd heq.symm (Name.snake_ne (h.snake_ne _ ha))
  · exact absurd heq (Name.snake_ne (h.snake_ne _ hb))
  · exact heq

lemma avoid_snake_ne (h : Avoidable taken fixed) {s : String} (hs : s ∈ fixed) (name : String) :
    avoid taken (Name.snake name) ≠ s := by
  obtain ⟨hfixed, hescaped⟩ := h.fixed_ne s hs
  rcases h.avoid_eq_or (Name.snake name) with ⟨hname, heq⟩ | ⟨hname, heq⟩ <;> rw [heq]
  · exact hescaped _ hname
  · rcases hfixed with hmem | hne
    · rintro rfl
      exact hname hmem
    · exact Name.snake_ne hne

/-- Names that differ in snake case give members that differ from each other and from the fixed
ones. -/
lemma nodup (h : Avoidable taken fixed) {names : List String}
    (hdiffer : names.Pairwise fun a b => Name.snake a ≠ Name.snake b) :
    (names.map (fun name => avoid taken (Name.snake name)) ++ fixed).Nodup := by
  refine List.nodup_append.mpr ⟨?_, h.fixed_nodup, ?_⟩
  · rw [List.Nodup, List.pairwise_map]
    exact hdiffer.imp fun hne heq => hne (h.avoid_snake_injective heq)
  · intro a ha s hs
    obtain ⟨name, _, rfl⟩ := List.mem_map.mp ha
    exact h.avoid_snake_ne hs name

end Avoidable

/-! ### Fixed members -/

/-- The members of a container beside the getters of its registers. -/
def containerMembers : List String := ["GROUP", "CAPABILITIES", "__init__", "debug_registers"]

/-- The members of a value that is read from or written to a register, beside those for its bit
fields. -/
def valueMembers : List String :=
  ["__slots__", "__init__", "raw_bits", "set_raw_bits", "__eq__", "__hash__", "__repr__"]

/-- The members of a write proxy beside the setters of the named values. -/
def proxyMembers : List String :=
  ["__slots__", "__init__", "bits", "bit", "set_bit", "clear_bit", "variant"]

/-- The members of the read class of a bit field beside those for the named values. -/
def readMembers : List String :=
  ["__slots__", "__init__", "from_raw", "to_raw", "bits", "bit", "bit_is_set", "bit_is_clear",
   "__eq__", "__hash__", "__repr__"]

lemma avoidable_containerMembers : Avoidable containerMethods containerMembers := by
  constructor <;> decide

lemma avoidable_valueMembers : Avoidable FieldNames.valueMethods valueMembers := by
  constructor <;> decide

lemma avoidable_proxyMembers : Avoidable proxyMethods proxyMembers := by
  constructor <;> decide

/-! ### Named values -/

/-- The member of a read class that compares a value with a named value. -/
def comparatorName (v : EnumValue) : String := s!"is_{Name.snake v.name}"

lemma toList_comparatorName (v : EnumValue) :
    (comparatorName v).toList = 'i' :: 's' :: '_' :: (Name.snake v.name).toList := by
  simp [comparatorName, toString]

lemma comparatorName_ne_constant (v : EnumValue) (name : String) :
    Name.constant name ≠ comparatorName v := by
  intro h
  have hi : 'i' ∈ (Name.constant name).toList := by simp [h, toList_comparatorName]
  have := Name.isLower_of_mem_constant hi
  simp at this

lemma readMembers_ne (name : String) (v : EnumValue) :
    ∀ s ∈ readMembers, Name.constant name ≠ s ∧ comparatorName v ≠ s := by
  have hconstant : ∀ s ∈ readMembers, Name.constant s ≠ s := by decide
  have hcomparator : ∀ s ∈ readMembers, s.toList.take 3 ≠ ['i', 's', '_'] := by decide
  intro s hs
  refine ⟨Name.constant_ne (hconstant s hs), ?_⟩
  rintro rfl
  exact hcomparator _ hs (by simp [toList_comparatorName])

/-- Values that differ as constants give constants and comparators that differ from each other and
from the fixed members of a read class. -/
lemma nodup_readMembers {values : List EnumValue}
    (hdiffer : (values.map (·.name)).Pairwise fun a b => Name.constant a ≠ Name.constant b) :
    (values.map (fun v => Name.constant v.name) ++ values.map comparatorName ++
      readMembers).Nodup := by
  rw [List.pairwise_map] at hdiffer
  refine List.nodup_append.mpr ⟨List.nodup_append.mpr ⟨?_, ?_, ?_⟩, by decide, ?_⟩
  · rwa [List.Nodup, List.pairwise_map]
  · rw [List.Nodup, List.pairwise_map]
    refine hdiffer.imp fun hne heq => hne (Name.snake_eq_snake_iff.mp ?_)
    simpa [← String.toList_inj, toList_comparatorName] using heq
  · rintro _ hconstant _ hcomparator
    obtain ⟨v, _, rfl⟩ := List.mem_map.mp hconstant
    obtain ⟨w, _, rfl⟩ := List.mem_map.mp hcomparator
    exact comparatorName_ne_constant w v.name
  · intro own hown s hs
    rcases List.mem_append.mp hown with hown | hown
    · obtain ⟨v, _, rfl⟩ := List.mem_map.mp hown
      exact (readMembers_ne v.name v s hs).1
    · obtain ⟨v, _, rfl⟩ := List.mem_map.mp hown
      exact (readMembers_ne v.name v s hs).2

end RegisterMap.Accessor
