import RegisterMap.Proofs.Claimed

/-!
# Built-in names

The preamble and the generated methods look up some names that are built into the language. All but
one of them start with a small letter, so that no generated name hides them. The one that is left is
that of an exception, which the preamble raises: it is hidden exactly if the names of a group and a
register together are its own, because a class for it is not among the names of the preamble.
-/

namespace RegisterMap.Accessor

/-- The built-in names that generated code looks up. -/
def lookedUp : List String :=
  ["int", "bool", "str", "object", "type", "property", "classmethod", "isinstance", "getattr",
   "hash", "repr", "frozenset", "TypeError"]

lemma eq_of_isCapital_of_mem_lookedUp {name : String} (h : IsCapital name)
    (hname : name ∈ lookedUp) : name = "TypeError" := by
  have hsmall : ∀ name ∈ lookedUp, name = "TypeError" ∨ ¬IsCapital name := by
    simp [lookedUp, IsCapital]
  exact (hsmall name hname).resolve_right fun hcapital => hcapital h

/-! ### The name of the exception -/

lemma eq_of_isVariant_typeError {asked : String} (h : IsVariant asked "TypeError") :
    asked = "TypeError" :=
  h.eq_of_getLast? (by decide)

/-- What is asked for as the name of the exception ends like it. -/
lemma not_isVariant_typeError {a b : String} (hb : ¬b.toList <:+ "TypeError".toList) :
    ¬IsVariant (a ++ b) "TypeError" := by
  intro h
  refine hb ⟨a.toList, ?_⟩
  rw [← eq_of_isVariant_typeError h, String.toList_append]

/-- The name of the exception is put together of two names with capitals in one way only. -/
lemma eq_of_append_eq_typeError {a b : String} (ha : IsCapital a) (hb : IsCapital b)
    (h : a ++ b = "TypeError") : a = "Type" := by
  have happend : a.toList ++ b.toList = "TypeError".toList := by rw [← h, String.toList_append]
  have htake : a.toList = "TypeError".toList.take a.toList.length := by
    rw [← happend, List.take_left]
  have hdrop : b.toList = "TypeError".toList.drop a.toList.length := by
    rw [← happend, List.drop_left]
  have hlength : a.toList.length ≤ 9 := by
    have := congrArg List.length happend
    simp at this
    omega
  -- The second name starts with a capital, and there are two of these.
  have hsplit : ∀ k ≤ 9, (∃ c ∈ ("TypeError".toList.drop k).head?, c.isUpper = true ∨ c = '_') →
      k = 0 ∨ k = 4 := by
    intro k hk
    interval_cases k <;> simp
  rcases hsplit _ hlength (hdrop ▸ hb) with hzero | hfour
  · obtain ⟨c, hc, _⟩ := ha
    simp [List.length_eq_zero_iff.mp hzero] at hc
  · rw [← String.toList_inj, htake, hfour]
    decide

section Accepted

variable {root : Table} {m : Model} {g : GroupNames}

/-- Among the names for an accepted document, only that of an accessor can be that of the
exception. -/
lemma exists_accessor_eq_typeError (h : Model.ofTable root = .ok m) (hg : g ∈ nameGroups m)
    (hname : "TypeError" ∈ g.claimed) :
    ∃ n ∈ g.registers, groupWord g.name ++ Name.pascal n.register.name = "TypeError" := by
  have hgroup := named_of_mem_nameGroups hg
  have hclaimed := hname
  simp only [GroupNames.claimed, List.mem_append, List.mem_cons, List.not_mem_nil, or_false,
    List.mem_flatMap, RegisterNames.claimed, FieldNames.claimed] at hname
  rcases hname with (hname | hname) |
    ⟨n, hn, (hname | hname | hname | hname) | ⟨f, hf, hname | hname | hname⟩⟩
  · have hvariant := hname ▸ hgroup.marker_isVariant
    split_ifs at hvariant
    · exact absurd hvariant (not_isVariant_typeError (by decide))
    · exact absurd (eq_of_isVariant_typeError hvariant) (by decide)
  · exact absurd (hname ▸ hgroup.container_isVariant) (not_isVariant_typeError (by decide))
  · refine ⟨n, hn, eq_of_isVariant_typeError ?_⟩
    exact hname ▸ (hgroup.registers_named n hn).accessor_isVariant
  all_goals
    have hregister := hgroup.registers_named n hn
  · exact absurd (hname ▸ hregister.readClass_isVariant) (not_isVariant_typeError (by decide))
  · exact absurd (hname ▸ hregister.writeClass_isVariant) (not_isVariant_typeError (by decide))
  · exact absurd (hname ▸ hregister.ioClass_isVariant) (not_isVariant_typeError (by decide))
  all_goals
    have hfield := hregister.fields_named f hf
  · have hasked := eq_of_isVariant_typeError (hname ▸ hfield.constant_isVariant)
    exact absurd (congrArg (·.toList.head?) hasked) (by simp [toString])
  · have hvariant := hname ▸ hfield.readClass_isVariant
    split_ifs at hvariant
    -- Only a class without a suffix is left, and the name in front of it is one of the preamble.
    · have haccessor := eq_of_append_eq_typeError (isCapital_accessor h hg hn)
        (.pascal (isIdentifier_fieldName h hg hn hf)) (eq_of_isVariant_typeError hvariant)
      exact absurd (haccessor ▸ not_mem_preamble_of_mem_claimed hg (accessor_mem_claimed hn))
        (by decide)
    · exact absurd hvariant (not_isVariant_typeError (by decide))
  · exact absurd (hname ▸ hfield.writeClass_isVariant) (not_isVariant_typeError (by decide))

/-- No name for an accepted document is one of the built-in names that generated code looks up,
unless the names of a group and of a register in it together are that of the exception that the
preamble raises. -/
theorem lookedUp_not_claimed_iff_of_ofTable (h : Model.ofTable root = .ok m) :
    (∀ g ∈ nameGroups m, ∀ name ∈ g.claimed, name ∉ lookedUp) ↔
      ∀ group ∈ m.groups, ∀ r ∈ group.2, groupWord group.1 ++ Name.pascal r.name ≠ "TypeError" := by
  constructor
  · intro hfree group hgroup r hr hasked
    obtain ⟨g, hg, hclaimed⟩ := exists_mem_claimed hgroup hr (by rw [hasked]; decide)
    exact hfree g hg _ hclaimed (by rw [hasked]; decide)
  · intro hasked g hg name hclaimed hlooked
    have hcapital := isCapital_of_mem_claimed h hg hclaimed
    rw [eq_of_isCapital_of_mem_lookedUp hcapital hlooked] at hclaimed
    obtain ⟨n, hn, heq⟩ := exists_accessor_eq_typeError h hg hclaimed
    exact hasked _ (mem_groups_of_mem_nameGroups hg) n.register (List.mem_map_of_mem hn) heq

end Accepted

/-- The names for a register called `value_error` are no built-in names that are looked up. -/
theorem lookedUp_not_claimed_valueError :
    Model.ofTable (plainDocument "value_error" "code") = .ok (plainModel "value_error" "code") ∧
      ∀ g ∈ nameGroups (plainModel "value_error" "code"), ∀ name ∈ g.claimed, name ∉ lookedUp := by
  have haccepted : Model.ofTable (plainDocument "value_error" "code") =
      .ok (plainModel "value_error" "code") := rfl
  refine ⟨haccepted, (lookedUp_not_claimed_iff_of_ofTable haccepted).mpr ?_⟩
  decide

/-- A document with a register called `type_error` is accepted, and the name of the exception that
the preamble raises is handed out for it. -/
theorem lookedUp_claimed_typeError :
    Model.ofTable (plainDocument "type_error" "code") = .ok (plainModel "type_error" "code") ∧
      "TypeError" ∈ lookedUp ∧
      ∃ g ∈ nameGroups (plainModel "type_error" "code"), "TypeError" ∈ g.claimed := by
  refine ⟨rfl, by decide, ?_⟩
  have hasked : groupWord none ++ Name.pascal (plainRegister "type_error" "code").name =
      "TypeError" := by decide
  have hfree : "TypeError" ∉ Preamble.names := by decide
  rw [← hasked] at hfree ⊢
  exact exists_mem_claimed (m := plainModel "type_error" "code") (List.mem_singleton_self _)
    (List.mem_singleton_self (plainRegister "type_error" "code")) hfree

end RegisterMap.Accessor
