import RegisterMap.Accessor.Register
import RegisterMap.Proofs.Claimed

/-!
# Private names

Inside a class, a name that starts with two underscores and does not end with two is private to the
class, and does not reach what the module defines. The names of generated classes avoid this but for
names of underscores and names that lead with a digit: those keep or get an underscore in front, and
the constants of bit fields put another one before it.
-/

namespace RegisterMap.Accessor

/-! ### Underscores in front -/

def StartsDunder (name : String) : Prop := ['_', '_'] <+: name.toList

def EndsDunder (name : String) : Prop := ['_', '_'] <:+ name.toList

/-- A name that inside a class body stands for another. -/
def IsPrivate (name : String) : Prop := StartsDunder name ∧ ¬EndsDunder name

instance (name : String) : Decidable (StartsDunder name) :=
  inferInstanceAs (Decidable (_ <+: _))

instance (name : String) : Decidable (EndsDunder name) :=
  inferInstanceAs (Decidable (_ <:+ _))

instance (name : String) : Decidable (IsPrivate name) :=
  inferInstanceAs (Decidable (_ ∧ _))

variable {a b name : String} {t : List Char}

lemma startsDunder_iff_of_toList (h : name.toList = a.toList ++ t) (ht : ∀ c ∈ t, c ≠ '_') :
    StartsDunder name ↔ StartsDunder a := by
  rw [StartsDunder, StartsDunder, h]
  match a.toList, t with
  | [], [] => rfl
  | [], c :: _ => simpa [List.cons_prefix_cons] using fun hc => absurd hc.symm (ht c (by simp))
  | [_], [] => rfl
  | [_], c :: _ => simpa [List.cons_prefix_cons] using fun _ hc => absurd hc.symm (ht c (by simp))
  | _ :: _ :: _, _ => simp [List.cons_prefix_cons]

lemma not_endsDunder_of_toList (h : name.toList = a.toList ++ t) (ht : ∀ c ∈ t, c ≠ '_')
    (hne : t ≠ []) : ¬EndsDunder name := by
  rintro ⟨init, hinit⟩
  rw [h] at hinit
  obtain ⟨front, c, rfl⟩ := List.eq_nil_or_concat t |>.resolve_left hne
  have hlast := congrArg List.getLast? hinit
  exact ht c (by simp) (by simpa using hlast.symm)

/-- What is added to a name has no underscores. -/
lemma IsVariant.exists_append {s : String} (h : IsVariant (a ++ s) name) (hs : '_' ∉ s.toList) :
    ∃ t, name.toList = a.toList ++ (s.toList ++ t) ∧ ∀ c ∈ s.toList ++ t, c ≠ '_' := by
  obtain ⟨digits, hname, hdigits⟩ := h.exists_toList
  refine ⟨digits, by rw [hname, String.toList_append, List.append_assoc], ?_⟩
  rintro c hc rfl
  rcases List.mem_append.mp hc with hc | hc
  · exact hs hc
  · exact absurd (hdigits _ hc) (by decide)

lemma startsDunder_iff_of_isVariant (h : IsVariant a name) :
    StartsDunder name ↔ StartsDunder a := by
  obtain ⟨t, hname, ht⟩ := IsVariant.exists_append (s := "") (by simpa using h) (by simp)
  exact startsDunder_iff_of_toList hname ht

lemma startsDunder_iff_of_isVariant_append {s : String} (h : IsVariant (a ++ s) name)
    (hs : '_' ∉ s.toList) : StartsDunder name ↔ StartsDunder a := by
  obtain ⟨t, hname, ht⟩ := h.exists_append hs
  exact startsDunder_iff_of_toList hname ht

lemma not_endsDunder_of_isVariant_append {s : String} (h : IsVariant (a ++ s) name)
    (hs : '_' ∉ s.toList) (hne : s ≠ "") : ¬EndsDunder name := by
  obtain ⟨t, hname, ht⟩ := h.exists_append hs
  refine not_endsDunder_of_toList hname ht ?_
  simpa using fun hempty => absurd hempty hne

/-- Behind a name that does not start with two underscores itself, only that of a single underscore
makes two of them. -/
lemma startsDunder_append_iff (ha : IsCapital a) (hstart : ¬StartsDunder a) :
    StartsDunder (a ++ b) ↔ a = "_" ∧ b.toList.head? = some '_' := by
  rw [← String.toList_inj]
  unfold StartsDunder at hstart ⊢
  rw [String.toList_append]
  obtain ⟨c, hc, _⟩ := ha
  match hlist : a.toList with
  | [] => simp [hlist] at hc
  | [d] => cases b.toList <;> simp [List.cons_prefix_cons, eq_comm]
  | d :: e :: _ =>
    simp only [hlist, List.cons_prefix_cons] at hstart
    simp [List.cons_prefix_cons]
    tauto

/-! ### References inside classes -/

/-- The names of a bit field that stand in the bodies of classes. -/
def FieldNames.referenced (n : RegisterNames) (f : FieldNames) : List String :=
  (if n.register.isReadable || n.hasWriteValue then [f.constant] else []) ++
    (if f.isClosed || n.register.isReadable then [f.readClass] else []) ++
    if n.hasWriteValue then [f.writeClass] else []

/-- The names of a register that stand in the bodies of classes. -/
def RegisterNames.referenced (n : RegisterNames) : List String :=
  [n.accessor, n.ioClass] ++ (if n.register.isReadable then [n.readClass] else []) ++
    (if n.hasWriteValue then [n.writeClass] else []) ++ n.fields.flatMap (·.referenced n)

/-- The names of a group that stand in the bodies of classes. -/
def GroupNames.referenced (g : GroupNames) : List String :=
  g.marker :: g.registers.flatMap RegisterNames.referenced

section Registers

variable {groupClass word : String} {n : RegisterNames} {f : FieldNames}

lemma startsDunder_constant_iff (hnamed : f.NamedFor n.accessor n.register)
    (haccessor : IsCapital n.accessor) :
    StartsDunder f.constant ↔ ¬Name.LeadsWithLetter n.accessor := by
  obtain ⟨c, hc, hleads⟩ := Name.exists_head?_constant haccessor.isStart
  obtain ⟨rest, hrest⟩ := List.head?_eq_some_iff.mp hc
  have hfront : StartsDunder s!"_{Name.constant n.accessor}_{Name.constant f.name}" ↔ c = '_' := by
    simp [StartsDunder, toString, hrest, List.cons_prefix_cons, eq_comm]
  rw [startsDunder_iff_of_isVariant hnamed.constant_isVariant, hfront]
  rcases hleads with ⟨hupper, hleads⟩ | ⟨hunderscore, hleads⟩
  · refine iff_of_false ?_ (not_not_intro hleads)
    rintro rfl
    cases hupper
  · exact iff_of_true hunderscore hleads

lemma head?_pascal_eq_underscore_iff {name : String} (hname : Name.isIdentifier name = true) :
    (Name.pascal name).toList.head? = some '_' ↔ ¬Name.LeadsWithLetter name := by
  obtain ⟨c, hc, hleads⟩ := Name.exists_head?_pascal (Name.isStart_head?_of_isIdentifier hname)
  rw [hc]
  rcases hleads with ⟨hupper, hleads⟩ | ⟨rfl, hleads⟩
  · refine iff_of_false ?_ (not_not_intro hleads)
    rintro ⟨⟩
    cases hupper
  · exact iff_of_true rfl hleads

lemma startsDunder_fieldClass_iff (haccessor : IsCapital n.accessor)
    (hstart : ¬StartsDunder n.accessor) (hname : Name.isIdentifier f.name = true) :
    StartsDunder (n.accessor ++ Name.pascal f.name) ↔
      n.accessor = "_" ∧ ¬Name.LeadsWithLetter f.name := by
  rw [startsDunder_append_iff haccessor hstart, head?_pascal_eq_underscore_iff hname]

lemma isPrivate_readClass_iff (hnamed : f.NamedFor n.accessor n.register)
    (haccessor : IsCapital n.accessor) (hstart : ¬StartsDunder n.accessor)
    (hname : Name.isIdentifier f.name = true) :
    IsPrivate f.readClass ↔
      (n.accessor = "_" ∧ ¬Name.LeadsWithLetter f.name) ∧ ¬EndsDunder f.readClass := by
  have hvariant := hnamed.readClass_isVariant
  rw [IsPrivate, ← startsDunder_fieldClass_iff haccessor hstart hname]
  split_ifs at hvariant
  · rw [startsDunder_iff_of_isVariant hvariant]
  · rw [startsDunder_iff_of_isVariant_append hvariant (by decide)]

lemma isPrivate_writeClass_iff (hnamed : f.NamedFor n.accessor n.register)
    (haccessor : IsCapital n.accessor) (hstart : ¬StartsDunder n.accessor)
    (hname : Name.isIdentifier f.name = true) :
    IsPrivate f.writeClass ↔ n.accessor = "_" ∧ ¬Name.LeadsWithLetter f.name := by
  have hvariant := hnamed.writeClass_isVariant
  rw [IsPrivate, startsDunder_iff_of_isVariant_append hvariant (by decide),
    startsDunder_fieldClass_iff haccessor hstart hname]
  exact and_iff_left (not_endsDunder_of_isVariant_append hvariant (by decide) (by decide))

private lemma forall_mem_ite_iff {p : String → Prop} {c : Prop} [Decidable c] {name : String} :
    (∀ other ∈ if c then [name] else [], p other) ↔ (c → p name) := by
  split_ifs with h <;> simp [h]

lemma forall_mem_referenced_iff {p : String → Prop} :
    (∀ name ∈ f.referenced n, p name) ↔
      (n.register.isReadable = true ∨ n.hasWriteValue = true → p f.constant) ∧
      (f.isClosed = true ∨ n.register.isReadable = true → p f.readClass) ∧
      (n.hasWriteValue = true → p f.writeClass) := by
  simp only [FieldNames.referenced, List.forall_mem_append, forall_mem_ite_iff, Bool.or_eq_true,
    and_assoc]

lemma forall_referenced_field_iff (hnamed : f.NamedFor n.accessor n.register)
    (haccessor : IsCapital n.accessor) (hstart : ¬StartsDunder n.accessor)
    (hname : Name.isIdentifier f.name = true) :
    (∀ name ∈ f.referenced n, ¬IsPrivate name) ↔
      (n.register.isReadable = true ∨ n.hasWriteValue = true →
        Name.LeadsWithLetter n.accessor ∨ EndsDunder f.constant) ∧
      (n.accessor = "_" → ¬Name.LeadsWithLetter f.name → n.hasWriteValue = false ∧
        (f.isClosed = true ∨ n.register.isReadable = true → EndsDunder f.readClass)) := by
  have hconstant : IsPrivate f.constant ↔
      ¬Name.LeadsWithLetter n.accessor ∧ ¬EndsDunder f.constant := by
    rw [IsPrivate, startsDunder_constant_iff hnamed haccessor]
  have hread := isPrivate_readClass_iff hnamed haccessor hstart hname
  have hwrite := isPrivate_writeClass_iff hnamed haccessor hstart hname
  rw [forall_mem_referenced_iff, hconstant, hread, hwrite, not_and_or, not_not, not_not]
  refine and_congr_right fun _ => ⟨?_, ?_⟩
  · rintro ⟨hread, hwrite⟩ haccessor hname
    refine ⟨Bool.eq_false_iff.mpr fun hvalue => hwrite hvalue ⟨haccessor, hname⟩, fun hclass => ?_⟩
    exact by_contra fun hends => hread hclass ⟨⟨haccessor, hname⟩, hends⟩
  · intro hpublic
    refine ⟨?_, ?_⟩
    · rintro hclass ⟨⟨haccessor, hname⟩, hends⟩
      exact hends ((hpublic haccessor hname).2 hclass)
    · rintro hvalue ⟨haccessor, hname⟩
      exact absurd hvalue (by simp [(hpublic haccessor hname).1])

/-- None of the names of a register is private, exactly if that of its accessor does not start with
two underscores and none of the names of its bit fields is private. -/
lemma forall_referenced_register_iff (hnamed : n.NamedFor groupClass word) :
    (∀ name ∈ n.referenced, ¬IsPrivate name) ↔
      ¬StartsDunder n.accessor ∧ ∀ f ∈ n.fields, ∀ name ∈ f.referenced n, ¬IsPrivate name := by
  have hprivate {s name : String} (hvariant : IsVariant (n.accessor ++ s) name)
      (hs : '_' ∉ s.toList) (hne : s ≠ "") : IsPrivate name ↔ StartsDunder n.accessor := by
    rw [IsPrivate, startsDunder_iff_of_isVariant_append hvariant hs]
    exact and_iff_left (not_endsDunder_of_isVariant_append hvariant hs hne)
  have hio := hprivate hnamed.ioClass_isVariant (by decide) (by decide)
  have hread := hprivate hnamed.readClass_isVariant (by decide) (by decide)
  have hwrite := hprivate hnamed.writeClass_isVariant (by decide) (by decide)
  constructor
  · intro hnone
    refine ⟨?_, fun f hf name hname => hnone name ?_⟩
    · rw [← hio]
      exact hnone n.ioClass (by simp [RegisterNames.referenced])
    · exact List.mem_append_right _ (List.mem_flatMap.mpr ⟨f, hf, hname⟩)
  · rintro ⟨hstart, hfields⟩
    simp only [RegisterNames.referenced, List.forall_mem_append, forall_mem_ite_iff,
      List.forall_mem_cons, List.forall_mem_flatMap, hio, hread, hwrite]
    exact ⟨⟨⟨⟨fun haccessor => hstart haccessor.1, hstart, by simp⟩, fun _ => hstart⟩,
      fun _ => hstart⟩, hfields⟩

end Registers

section Accepted

variable {root : Table} {m : Model}

lemma isPrivate_marker_iff {g : GroupNames} (hg : g ∈ nameGroups m) :
    IsPrivate g.marker ↔ StartsDunder g.marker := by
  have hvariant := (named_of_mem_nameGroups hg).marker_isVariant
  refine and_iff_left ?_
  split_ifs at hvariant
  · exact not_endsDunder_of_isVariant_append hvariant (by decide) (by decide)
  · exact not_endsDunder_of_isVariant_append (a := "") (s := "DefaultGroup") (by simpa using hvariant)
      (by decide) (by decide)

/-- No name for an accepted document that stands in the body of a class is private, exactly if no
marker and no accessor starts with two underscores and the names of bit fields keep to the following.
The constant of a bit field is used only if the name of the accessor leads with a letter or the
constant ends with two underscores. If the accessor is called by an underscore, then a bit field that
does not lead with a letter has no write proxy, and has a read class only if the name of that ends
with two underscores. -/
theorem referenced_not_private_iff_of_ofTable (h : Model.ofTable root = .ok m) :
    (∀ g ∈ nameGroups m, ∀ name ∈ g.referenced, ¬IsPrivate name) ↔
      ∀ g ∈ nameGroups m, ¬StartsDunder g.marker ∧
        ∀ n ∈ g.registers, ¬StartsDunder n.accessor ∧
          ∀ f ∈ n.fields,
            (n.register.isReadable = true ∨ n.hasWriteValue = true →
              Name.LeadsWithLetter n.accessor ∨ EndsDunder f.constant) ∧
            (n.accessor = "_" → ¬Name.LeadsWithLetter f.name → n.hasWriteValue = false ∧
              (f.isClosed = true ∨ n.register.isReadable = true → EndsDunder f.readClass)) := by
  refine forall₂_congr fun g hg => ?_
  rw [GroupNames.referenced, List.forall_mem_cons, List.forall_mem_flatMap, isPrivate_marker_iff hg]
  refine and_congr_right fun _ => forall₂_congr fun n hn => ?_
  have hnamed := (named_of_mem_nameGroups hg).registers_named n hn
  rw [forall_referenced_register_iff hnamed]
  refine and_congr_right fun hstart => forall₂_congr fun f hf => ?_
  exact forall_referenced_field_iff (hnamed.fields_named f hf) (isCapital_accessor h hg hn) hstart
    (isIdentifier_fieldName h hg hn hf)

end Accepted

set_option maxRecDepth 100000 in
set_option synthInstance.maxSize 1000 in
/-- No name is private for a register called `_mode`. -/
theorem referenced_not_private_mode :
    Model.ofTable (plainDocument "_mode" "_2d") = .ok (plainModel "_mode" "_2d") ∧
      ∀ g ∈ nameGroups (plainModel "_mode" "_2d"), ∀ name ∈ g.referenced, ¬IsPrivate name := by
  have haccepted : Model.ofTable (plainDocument "_mode" "_2d") = .ok (plainModel "_mode" "_2d") := rfl
  refine ⟨haccepted, (referenced_not_private_iff_of_ofTable haccepted).mpr ?_⟩
  decide

set_option maxRecDepth 100000 in
/-- A document with a register called `_1x` is accepted, and the constant of its bit field is
private. -/
theorem referenced_private_1x :
    Model.ofTable (plainDocument "_1x" "f") = .ok (plainModel "_1x" "f") ∧
      ∃ g ∈ nameGroups (plainModel "_1x" "f"), "__1_X_F" ∈ g.referenced ∧ IsPrivate "__1_X_F" := by
  refine ⟨rfl, ?_⟩
  decide

end RegisterMap.Accessor
