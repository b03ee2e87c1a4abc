import RegisterMap.Accessor.Module
import RegisterMap.Proofs.Document
import RegisterMap.Proofs.Naming

/-!
# Generation from accepted documents

If a model is that of an accepted document, then an enumeration of it that counts as complete names
every value of its bit field. The one error that is left to the generation of code is that of a
blank description.
-/

namespace RegisterMap.Accessor

variable {α β : Type}

/-! ### Complete enumerations -/

/-- Distinct values that are all the numbers up to a maximum are these numbers in another order. -/
lemma definesAll_of_mem_iff {e : RegisterEnum} {maxValue : Nat}
    (hdistinct : (e.values.map (·.value)).Nodup)
    (hmem : ∀ n : Int, n ∈ e.values.map (·.value) ↔ 0 ≤ n ∧ n ≤ maxValue) :
    definesAll e maxValue = true := by
  have hnumbers : ((List.range (maxValue + 1)).map Int.ofNat).Pairwise (· < ·) := by
    rw [List.pairwise_map]
    exact List.pairwise_lt_range.imp fun h => Int.ofNat_lt.mpr h
  have hperm : (e.values.map (·.value)).Perm ((List.range (maxValue + 1)).map Int.ofNat) := by
    refine (List.perm_ext_iff_of_nodup hdistinct (hnumbers.imp fun h => Int.ne_of_lt h)).mpr ?_
    intro n
    rw [hmem, List.mem_map]
    constructor
    · rintro ⟨hzero, hmax⟩
      exact ⟨n.toNat, List.mem_range.mpr (by omega), Int.toNat_of_nonneg hzero⟩
    · rintro ⟨k, hk, rfl⟩
      have := List.mem_range.mp hk
      exact ⟨Int.natCast_nonneg k, by simp; omega⟩
  have hsorted : ((e.values.map (·.value)).mergeSort).Pairwise fun a b => a ≤ b := by
    refine (List.pairwise_mergeSort ?_ ?_ _).imp fun h => of_decide_eq_true h
    · simpa using fun a b c => Int.le_trans
    · simpa using Int.le_total
  have hsort : (e.values.map (·.value)).mergeSort = (List.range (maxValue + 1)).map Int.ofNat :=
    List.Perm.eq_of_pairwise (fun a b _ _ => Int.le_antisymm) hsorted
      (hnumbers.imp fun h => Int.le_of_lt h) ((List.mergeSort_perm _ _).trans hperm)
  have hlength : e.values.length = maxValue + 1 := by simpa using hperm.length_eq
  simp [definesAll, hsort, hlength]

/-! ### Errors -/

/-- A result that, if it is an error, is that of a blank description. -/
def FailsBlankOnly (x : Except Error α) : Prop := ∀ e, x = .error e → e = .blankDocstring

namespace FailsBlankOnly

lemma ok (a : α) : FailsBlankOnly (.ok a) := by
  intro e h
  cases h

lemma bind {x : Except Error α} {f : α → Except Error β} (hx : FailsBlankOnly x)
    (hf : ∀ a, FailsBlankOnly (f a)) : FailsBlankOnly (x >>= f) := by
  cases x with
  | error e =>
    intro e' h
    cases h
    exact hx e rfl
  | ok a => exact hf a

lemma map {x : Except Error α} (f : α → β) (hx : FailsBlankOnly x) : FailsBlankOnly (f <$> x) := by
  cases x with
  | error e =>
    intro e' h
    cases h
    exact hx e rfl
  | ok a => exact ok (f a)

lemma mapM {f : α → Except Error β} {as : List α} (hf : ∀ a ∈ as, FailsBlankOnly (f a)) :
    FailsBlankOnly (as.mapM f) := by
  induction as with
  | nil => exact ok []
  | cons a as ih =>
    rw [List.mapM_cons]
    refine (hf a List.mem_cons_self).bind fun b => ?_
    exact (ih fun a' ha' => hf a' (List.mem_cons_of_mem _ ha')).bind fun bs => ok (b :: bs)

lemma docstring (text : String) : FailsBlankOnly (docstring text) := by
  intro e h
  unfold Accessor.docstring at h
  split_ifs at h
  split at h <;> simp_all

end FailsBlankOnly

private lemma bind_ok (a : α) (f : α → Except Error β) : (Except.ok a >>= f) = f a := rfl

/-! ### Classes of bit fields -/

lemma failsBlankOnly_closedClass {r : RegisterNames} {f : FieldNames} {e : RegisterEnum}
    {maxValue : Nat} (hmax : f.field.range.maxValue = .ok maxValue)
    (hall : definesAll e maxValue = true) : FailsBlankOnly (closedClass r f e) := by
  have hbound : f.field.range.maxValue.mapError Error.range = .ok maxValue := by
    rw [hmax]
    rfl
  simp only [closedClass, hbound, bind_ok, hall, Bool.not_true, Bool.false_eq_true, if_false]
  exact (FailsBlankOnly.docstring _).bind fun _ => FailsBlankOnly.ok _

lemma failsBlankOnly_openClass (f : FieldNames) : FailsBlankOnly (openClass f) := by
  unfold openClass
  exact (FailsBlankOnly.docstring _).bind fun _ => FailsBlankOnly.ok _

lemma failsBlankOnly_writeProxy (r : RegisterNames) (f : FieldNames) :
    FailsBlankOnly (writeProxy r f) := by
  unfold writeProxy
  refine (FailsBlankOnly.docstring _).bind fun _ => ?_
  refine (FailsBlankOnly.mapM fun v _ => ?_).bind fun _ => FailsBlankOnly.ok _
  exact (FailsBlankOnly.docstring _).bind fun _ => FailsBlankOnly.ok _

/-! ### Classes of registers -/

lemma failsBlankOnly_fieldMethods (r : RegisterNames) (result body : FieldNames → String) :
    FailsBlankOnly (fieldMethods r result body) := by
  unfold fieldMethods
  exact FailsBlankOnly.mapM fun f _ =>
    (FailsBlankOnly.docstring _).bind fun _ => FailsBlankOnly.ok _

lemma failsBlankOnly_readValue (r : RegisterNames) : FailsBlankOnly (readValue r) := by
  unfold readValue
  refine (FailsBlankOnly.docstring _).bind fun _ => ?_
  exact (failsBlankOnly_fieldMethods _ _ _).bind fun _ => FailsBlankOnly.ok _

lemma failsBlankOnly_writeValue (r : RegisterNames) : FailsBlankOnly (writeValue r) := by
  unfold writeValue
  refine (FailsBlankOnly.docstring _).bind fun _ => ?_
  exact (failsBlankOnly_fieldMethods _ _ _).bind fun _ => FailsBlankOnly.ok _

lemma failsBlankOnly_accessorClass (r : RegisterNames) : FailsBlankOnly (accessorClass r) := by
  have hwriting (name summary start : String) : FailsBlankOnly (writing r name summary start) :=
    (FailsBlankOnly.docstring _).bind fun _ => FailsBlankOnly.ok _
  unfold accessorClass
  refine (FailsBlankOnly.docstring _).bind fun _ => ?_
  exact (hwriting _ _ _).bind fun _ => (hwriting _ _ _).bind fun _ => FailsBlankOnly.ok _

lemma failsBlankOnly_writeItems (r : RegisterNames) : FailsBlankOnly (writeItems r) := by
  unfold writeItems
  split_ifs
  · refine (FailsBlankOnly.mapM fun f _ => failsBlankOnly_writeProxy r f).bind fun _ => ?_
    exact (failsBlankOnly_writeValue r).bind fun _ => FailsBlankOnly.ok _
  · exact FailsBlankOnly.ok _

lemma failsBlankOnly_readItems {r : RegisterNames}
    (hread : ∀ f ∈ r.fields, FailsBlankOnly (readClass? r f)) : FailsBlankOnly (readItems r) := by
  unfold readItems
  refine (FailsBlankOnly.mapM hread).bind fun _ => ?_
  dsimp only
  split_ifs
  · exact ((failsBlankOnly_readValue r).map some).bind fun _ => FailsBlankOnly.ok _
  · exact FailsBlankOnly.ok _

lemma failsBlankOnly_registerItems {r : RegisterNames}
    (hread : ∀ f ∈ r.fields, FailsBlankOnly (readClass? r f)) :
    FailsBlankOnly (registerItems r) := by
  unfold registerItems
  refine (failsBlankOnly_readItems hread).bind fun _ => ?_
  refine (failsBlankOnly_writeItems r).bind fun _ => ?_
  refine ((FailsBlankOnly.docstring _).bind fun _ => FailsBlankOnly.ok _).bind fun _ => ?_
  exact (failsBlankOnly_accessorClass r).bind fun _ => FailsBlankOnly.ok _

/-! ### Modules -/

/-- If no read class fails but for a blank description, then the module does not either. -/
lemma failsBlankOnly_generate {m : Model} (moduleName : String)
    (hread : ∀ g ∈ nameGroups m, ∀ r ∈ g.registers, ∀ f ∈ r.fields,
      FailsBlankOnly (readClass? r f)) : FailsBlankOnly (generate m moduleName) := by
  have hcontainer (g : GroupNames) : FailsBlankOnly (containerClass g) :=
    (FailsBlankOnly.docstring _).bind fun _ =>
      (FailsBlankOnly.docstring _).bind fun _ => FailsBlankOnly.ok _
  have hgroup : ∀ g ∈ nameGroups m, FailsBlankOnly (groupItems g) := by
    intro g hg
    unfold groupItems
    refine ((FailsBlankOnly.docstring _).bind fun _ => FailsBlankOnly.ok _).bind fun _ => ?_
    refine (FailsBlankOnly.mapM fun r hr =>
      failsBlankOnly_registerItems (hread g hg r hr)).bind fun _ => ?_
    exact (hcontainer g).bind fun _ => FailsBlankOnly.ok _
  unfold generate
  refine ((FailsBlankOnly.docstring _).bind fun _ => FailsBlankOnly.ok _).bind fun _ => ?_
  exact ((FailsBlankOnly.mapM hgroup).bind fun _ => FailsBlankOnly.ok _).bind fun _ =>
    FailsBlankOnly.ok _

/-! ### Accepted documents -/

section Accepted

variable {root : Table} {m : Model}

/-- In the model of an accepted document, a complete enumeration of a bit field names every value
that the range of the bit field can hold. -/
lemma exists_definesAll_of_ofTable (h : Model.ofTable root = .ok m) {g : GroupNames}
    (hg : g ∈ nameGroups m) {n : RegisterNames} (hn : n ∈ g.registers) {f : FieldNames}
    (hf : f ∈ n.fields) {e : RegisterEnum} (he : f.enum? = some e)
    (hcomplete : e.isComplete = true) :
    ∃ maxValue, f.field.range.maxValue = .ok maxValue ∧ definesAll e maxValue = true := by
  obtain ⟨hregister, hfields⟩ := mem_of_mem_nameGroups hg hn
  obtain ⟨_, henum⟩ := hfields f hf
  obtain ⟨_, _, _, hmade⟩ := Model.exists_madeFrom_of_ofTable h hregister
  rw [henum] at he
  have hmem : e ∈ n.register.enums := List.mem_of_find?_eq_some he
  have hrange : e.range = f.field.range := by simpa using List.find?_some he
  obtain ⟨maxValue, hmax⟩ := hmade.enumsFit.exists_maxValue e hmem
  refine ⟨maxValue, hrange ▸ hmax, definesAll_of_mem_iff (hmade.enumsFit.values_nodup e hmem) ?_⟩
  rw [BitRange.natCast_maxValue hmax]
  exact (hmade.enumsFit.isComplete_iff e hmem).mp hcomplete

lemma failsBlankOnly_readClass?_of_ofTable (h : Model.ofTable root = .ok m) {g : GroupNames}
    (hg : g ∈ nameGroups m) {n : RegisterNames} (hn : n ∈ g.registers) {f : FieldNames}
    (hf : f ∈ n.fields) : FailsBlankOnly (readClass? n f) := by
  unfold readClass?
  split
  next e he =>
    split_ifs with hcomplete
    · obtain ⟨maxValue, hmax, hall⟩ := exists_definesAll_of_ofTable h hg hn hf he hcomplete
      exact (failsBlankOnly_closedClass hmax hall).map some
    · exact (failsBlankOnly_openClass f).map some
    · exact FailsBlankOnly.ok none
  next =>
    split_ifs
    · exact (failsBlankOnly_openClass f).map some
    · exact FailsBlankOnly.ok none

/-- The enumerations of an accepted document fit their registers. Those that count as complete
define every value, so that generation fails neither for an incomplete enumeration nor for a range
without a largest value. -/
theorem enumsFit_of_ofTable (h : Model.ofTable root = .ok m) :
    (∀ r ∈ m.allRegisters, r.EnumsFit) ∧
      (∀ g ∈ nameGroups m, ∀ n ∈ g.registers, ∀ f ∈ n.fields, ∀ e, f.enum? = some e →
        e.isComplete = true →
          ∃ maxValue, f.field.range.maxValue = .ok maxValue ∧ definesAll e maxValue = true) ∧
      ∀ moduleName error, generate m moduleName = .error error → error = .blankDocstring := by
  refine ⟨?_, ?_, ?_⟩
  · intro r hr
    obtain ⟨_, _, _, hmade⟩ := Model.exists_madeFrom_of_ofTable h hr
    exact hmade.enumsFit
  · intro g hg n hn f hf e he hcomplete
    exact exists_definesAll_of_ofTable h hg hn hf he hcomplete
  · intro moduleName
    exact failsBlankOnly_generate moduleName fun g hg n hn f hf =>
      failsBlankOnly_readClass?_of_ofTable h hg hn hf

/-- The complete enumeration of the small document names zero and one. -/
theorem enumsFit_smallRegister :
    Model.ofTable Model.smallDocument = .ok Model.smallModel ∧
      ∀ n : Int, n ∈ [1, 0] ↔ 0 ≤ n ∧ n ≤ 2 ^ 1 - 1 := by
  have hfit := (enumsFit_of_ofTable Model.ofTable_smallDocument).1 Model.smallRegister (by decide)
  exact ⟨Model.ofTable_smallDocument, (hfit.isComplete_iff _ (List.mem_singleton_self _)).mp rfl⟩

end Accepted

end RegisterMap.Accessor
