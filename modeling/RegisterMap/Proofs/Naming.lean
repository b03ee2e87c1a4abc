import Mathlib.Data.List.Forall2
import Mathlib.Tactic.Lemma
import RegisterMap.Accessor.Naming
import RegisterMap.Proofs.NameScope

/-!
# The names for a model

Each group, register and bit field of a model is named once, in document order. A name is the one
that was asked for or a numbered variant of it, and all names come from one scope: they are different
from each other and from the names of the preamble.
-/

namespace RegisterMap.Accessor

variable {α β γ σ : Type}

/-! ### Lists of steps -/

lemma run_mapM_cons (f : α → StateM σ β) (a : α) (as : List α) (s : σ) :
    ((a :: as).mapM f).run s =
      (((f a).run s).1 :: ((as.mapM f).run ((f a).run s).2).1,
        ((as.mapM f).run ((f a).run s).2).2) := by
  rw [List.mapM_cons]
  rfl

lemma exists_of_mem_mapM {f : α → StateM σ β} {as : List α} {s : σ} {b : β}
    (h : b ∈ ((as.mapM f).run s).1) : ∃ a ∈ as, ∃ s', b = ((f a).run s').1 := by
  induction as generalizing s with
  | nil => cases h
  | cons a as ih =>
    rw [run_mapM_cons] at h
    rcases List.mem_cons.mp h with rfl | h
    · exact ⟨a, List.mem_cons_self, s, rfl⟩
    · obtain ⟨a', ha', s', hb⟩ := ih h
      exact ⟨a', List.mem_cons_of_mem _ ha', s', hb⟩

/-- What the results say that does not depend on the state is said of the list. -/
lemma map_run_mapM {f : α → StateM σ β} {p : β → γ} {q : α → γ}
    (h : ∀ a s, p ((f a).run s).1 = q a) (as : List α) (s : σ) :
    ((as.mapM f).run s).1.map p = as.map q := by
  induction as generalizing s with
  | nil => rfl
  | cons a as ih => rw [run_mapM_cons, List.map_cons, List.map_cons, h, ih]

lemma takes_mapM {f : α → StateM NameScope β} {claimed : β → List String}
    (h : ∀ a s, Takes s ((f a).run s).2 (claimed ((f a).run s).1)) (as : List α) (s : NameScope) :
    Takes s ((as.mapM f).run s).2 (((as.mapM f).run s).1.flatMap claimed) := by
  induction as generalizing s with
  | nil => exact .nil s
  | cons a as ih =>
    rw [run_mapM_cons, List.flatMap_cons]
    exact (h a s).append (ih _)

/-- What has been asked for in one of the steps is taken after all of them. -/
lemma mem_taken_of_mem_asked {f : α → StateM NameScope β} {claimed : β → List String}
    (asked : α → List String) (h : ∀ a s, Takes s ((f a).run s).2 (claimed ((f a).run s).1))
    (hasked : ∀ a s, ∀ name ∈ asked a, name ∈ ((f a).run s).2.taken) {as : List α} {s : NameScope}
    {a : α} (ha : a ∈ as) {name : String} (hname : name ∈ asked a) :
    name ∈ ((as.mapM f).run s).2.taken := by
  induction as generalizing s with
  | nil => cases ha
  | cons b as ih =>
    rw [run_mapM_cons]
    rcases List.mem_cons.mp ha with rfl | ha
    · exact ((takes_mapM h as _).mem_iff name).mpr (.inl (hasked a s name hname))
    · exact ih ha

/-! ### Bit fields -/

namespace FieldNames

/-- A bit field of a register with the names that it was given, where the accessor class of the
register has the given name. -/
structure NamedFor (className : String) (r : Register) (f : FieldNames) : Prop where
  enum_eq : f.enum? = r.enumFor? f.field
  method_eq : f.method = avoid valueMethods (Name.snake f.name)
  constant_isVariant :
    IsVariant s!"_{Name.constant className}_{Name.constant f.name}" f.constant
  readClass_isVariant : IsVariant (if f.isClosed then className ++ Name.pascal f.name
    else className ++ Name.pascal f.name ++ "R") f.readClass
  writeClass_isVariant : IsVariant (className ++ Name.pascal f.name ++ "W") f.writeClass

lemma exists_claim (className : String) (r : Register) (name : String) (field : BitField)
    (s : NameScope) :
    ∃ f s', (claim className r name field).run s = (f, s') ∧ (f.name, f.field) = (name, field) ∧
      f.NamedFor className r ∧ Takes s s' f.claimed := by
  obtain ⟨constant, s₁, h₁, hv₁, ht₁, _⟩ :=
    NameScope.exists_claim s!"_{Name.constant className}_{Name.constant name}" s
  obtain ⟨readClass, s₂, h₂, hv₂, ht₂, _⟩ := NameScope.exists_claim
    (if (r.enumFor? field).any (·.isComplete) then className ++ Name.pascal name
      else className ++ Name.pascal name ++ "R") s₁
  obtain ⟨writeClass, s₃, h₃, hv₃, ht₃, _⟩ :=
    NameScope.exists_claim (className ++ Name.pascal name ++ "W") s₂
  refine ⟨⟨name, field, r.enumFor? field, avoid valueMethods (Name.snake name), constant, readClass,
    writeClass⟩, s₃, ?_, rfl, ⟨rfl, rfl, hv₁, hv₂, hv₃⟩, (ht₁.append ht₂).append ht₃⟩
  simp only [claim, StateT.run_bind, h₁]
  simp only [bind, h₂]
  simp only [h₃]
  rfl

end FieldNames

/-! ### Registers -/

namespace RegisterNames

/-- A register of a group with the names that it was given, where the name of the group gives the
word before its own. -/
structure NamedFor (groupClass groupWord : String) (n : RegisterNames) : Prop where
  groupClass_eq : n.groupClass = groupClass
  accessor_isVariant : IsVariant (groupWord ++ Name.pascal n.register.name) n.accessor
  readClass_isVariant : IsVariant (n.accessor ++ "R") n.readClass
  writeClass_isVariant : IsVariant (n.accessor ++ "W") n.writeClass
  ioClass_isVariant : IsVariant (n.accessor ++ "Io") n.ioClass
  fields_eq : n.fields.map (fun f => (f.name, f.field)) = n.register.namedFields
  fields_named : ∀ f ∈ n.fields, f.NamedFor n.accessor n.register

lemma exists_claim (groupClass groupWord : String) (r : Register) (s : NameScope) :
    ∃ n s', (claim groupClass groupWord r).run s = (n, s') ∧ n.register = r ∧
      n.NamedFor groupClass groupWord ∧ Takes s s' n.claimed ∧
      groupWord ++ Name.pascal r.name ∈ s'.taken := by
  obtain ⟨accessor, s₁, h₁, hv₁, ht₁, hasked⟩ :=
    NameScope.exists_claim (groupWord ++ Name.pascal r.name) s
  obtain ⟨readClass, s₂, h₂, hv₂, ht₂, _⟩ := NameScope.exists_claim (accessor ++ "R") s₁
  obtain ⟨writeClass, s₃, h₃, hv₃, ht₃, _⟩ := NameScope.exists_claim (accessor ++ "W") s₂
  obtain ⟨ioClass, s₄, h₄, hv₄, ht₄, _⟩ := NameScope.exists_claim (accessor ++ "Io") s₃
  let claimField := fun field : String × BitField => FieldNames.claim accessor r field.1 field.2
  have hfields (field : String × BitField) (s : NameScope) :
      (((claimField field).run s).1.name, ((claimField field).run s).1.field) = field ∧
        ((claimField field).run s).1.NamedFor accessor r ∧
        Takes s ((claimField field).run s).2 ((claimField field).run s).1.claimed := by
    obtain ⟨f, s', hrun, h⟩ := FieldNames.exists_claim accessor r field.1 field.2 s
    rw [hrun]
    exact h
  have ht₅ := takes_mapM (fun field s => (hfields field s).2.2) r.namedFields s₄
  have htakes := (((ht₁.append ht₂).append ht₃).append ht₄).append ht₅
  refine ⟨⟨r, groupClass, accessor, readClass, writeClass, ioClass,
    ((r.namedFields.mapM claimField).run s₄).1⟩, ((r.namedFields.mapM claimField).run s₄).2, ?_, rfl,
    ⟨rfl, hv₁, hv₂, hv₃, hv₄, ?_, ?_⟩, htakes, ?_⟩
  · simp only [claim, StateT.run_bind, h₁]
    simp only [bind, h₂]
    simp only [h₃]
    simp only [h₄]
    rfl
  · exact (map_run_mapM (q := id) (fun field s => (hfields field s).1) _ _).trans (List.map_id _)
  · intro f hf
    obtain ⟨field, _, s', rfl⟩ := exists_of_mem_mapM hf
    exact (hfields field s').2.1
  · rw [(((ht₂.append ht₃).append ht₄).append ht₅).mem_iff]
    exact .inl hasked

end RegisterNames

/-! ### Groups -/

/-- The word that a group puts before the names of its classes. -/
def groupWord (name : Option String) : String := (name.map Name.pascal).getD ""

namespace GroupNames

/-- A group with the names that it was given. -/
structure Named (g : GroupNames) : Prop where
  marker_isVariant :
    IsVariant (if g.name.isSome then groupWord g.name ++ "Group" else "DefaultGroup") g.marker
  container_isVariant : IsVariant (groupWord g.name ++ "Registers") g.container
  registers_named : ∀ n ∈ g.registers, n.NamedFor g.marker (groupWord g.name)

lemma exists_claim (name : Option String) (registers : List Register) (s : NameScope) :
    ∃ g s', (claim name registers).run s = (g, s') ∧
      (g.name, g.registers.map (·.register)) = (name, registers) ∧ g.Named ∧
      Takes s s' g.claimed ∧
      ∀ asked ∈ registers.map (groupWord name ++ Name.pascal ·.name), asked ∈ s'.taken := by
  obtain ⟨marker, s₁, h₁, hv₁, ht₁, _⟩ := NameScope.exists_claim
    (if name.isSome then groupWord name ++ "Group" else "DefaultGroup") s
  obtain ⟨container, s₂, h₂, hv₂, ht₂, _⟩ :=
    NameScope.exists_claim (groupWord name ++ "Registers") s₁
  let claimRegister := RegisterNames.claim marker (groupWord name)
  have hregisters (r : Register) (s : NameScope) :
      ((claimRegister r).run s).1.register = r ∧
        ((claimRegister r).run s).1.NamedFor marker (groupWord name) ∧
        Takes s ((claimRegister r).run s).2 ((claimRegister r).run s).1.claimed ∧
        groupWord name ++ Name.pascal r.name ∈ ((claimRegister r).run s).2.taken := by
    obtain ⟨n, s', hrun, h⟩ := RegisterNames.exists_claim marker (groupWord name) r s
    rw [hrun]
    exact h
  have htakes (r : Register) (s : NameScope) := (hregisters r s).2.2.1
  refine ⟨⟨name, marker, container, ((registers.mapM claimRegister).run s₂).1⟩,
    ((registers.mapM claimRegister).run s₂).2, ?_, ?_, ⟨hv₁, hv₂, ?_⟩,
    (ht₁.append ht₂).append (takes_mapM htakes registers s₂), ?_⟩
  · simp only [groupWord] at h₁ h₂
    simp only [claim, StateT.run_bind, h₁]
    simp only [bind, h₂]
    rfl
  · rw [map_run_mapM (q := id) (fun r s => (hregisters r s).1), List.map_id]
  · intro n hn
    obtain ⟨r, _, s', rfl⟩ := exists_of_mem_mapM hn
    exact (hregisters r s').2.1
  · intro asked hasked
    obtain ⟨r, hr, rfl⟩ := List.mem_map.mp hasked
    have hasked (r : Register) (s : NameScope) : ∀ asked ∈ [groupWord name ++ Name.pascal r.name],
        asked ∈ ((claimRegister r).run s).2.taken := by
      intro asked hasked
      rw [List.mem_singleton.mp hasked]
      exact (hregisters r s).2.2.2
    exact mem_taken_of_mem_asked _ htakes hasked hr (List.mem_singleton_self _)

end GroupNames

/-! ### Models -/

section Models

variable {m : Model}

private lemma claimGroup_spec (group : Option String × List Register) (s : NameScope) :
    let run := (GroupNames.claim group.1 group.2).run s
    (run.1.name, run.1.registers.map (·.register)) = group ∧ run.1.Named ∧
      Takes s run.2 run.1.claimed ∧
      ∀ asked ∈ group.2.map (groupWord group.1 ++ Name.pascal ·.name), asked ∈ run.2.taken := by
  obtain ⟨g, s', hrun, h⟩ := GroupNames.exists_claim group.1 group.2 s
  rw [hrun]
  exact h

private lemma nameGroups_eq (m : Model) :
    nameGroups m = ((m.groups.mapM fun group => GroupNames.claim group.1 group.2).run
      (.ofList Preamble.names)).1 := rfl

/-- The groups of a model are named in order, each with its registers. -/
lemma map_nameGroups (m : Model) :
    (nameGroups m).map (fun g => (g.name, g.registers.map (·.register))) = m.groups := by
  rw [nameGroups_eq, map_run_mapM (q := id) fun group s => (claimGroup_spec group s).1,
    List.map_id]

lemma named_of_mem_nameGroups {g : GroupNames} (hg : g ∈ nameGroups m) : g.Named := by
  rw [nameGroups_eq] at hg
  obtain ⟨group, _, s, rfl⟩ := exists_of_mem_mapM hg
  exact (claimGroup_spec group s).2.1

lemma mem_groups_of_mem_nameGroups {g : GroupNames} (hg : g ∈ nameGroups m) :
    (g.name, g.registers.map (·.register)) ∈ m.groups := by
  rw [← map_nameGroups]
  exact List.mem_map_of_mem hg

lemma mem_allRegisters_of_mem_nameGroups {g : GroupNames} (hg : g ∈ nameGroups m)
    {n : RegisterNames} (hn : n ∈ g.registers) : n.register ∈ m.allRegisters :=
  List.mem_flatMap.mpr ⟨_, mem_groups_of_mem_nameGroups hg, List.mem_map_of_mem hn⟩

lemma exists_of_mem_allRegisters {r : Register} (hr : r ∈ m.allRegisters) :
    ∃ g ∈ nameGroups m, ∃ n ∈ g.registers, n.register = r := by
  obtain ⟨group, hgroup, hr⟩ := List.mem_flatMap.mp hr
  rw [← map_nameGroups] at hgroup
  obtain ⟨g, hg, rfl⟩ := List.mem_map.mp hgroup
  exact ⟨g, hg, List.mem_map.mp hr⟩

namespace RegisterNames.NamedFor

variable {groupClass word : String} {n : RegisterNames}

lemma mem_namedFields (h : n.NamedFor groupClass word) {f : FieldNames} (hf : f ∈ n.fields) :
    (f.name, f.field) ∈ n.register.namedFields := by
  rw [← h.fields_eq]
  exact List.mem_map_of_mem hf

lemma exists_of_mem_namedFields (h : n.NamedFor groupClass word) {name : String} {field : BitField}
    (hfield : (name, field) ∈ n.register.namedFields) : ∃ f ∈ n.fields, f.field = field := by
  rw [← h.fields_eq] at hfield
  obtain ⟨f, hf, heq⟩ := List.mem_map.mp hfield
  exact ⟨f, hf, congrArg Prod.snd heq⟩

end RegisterNames.NamedFor

lemma mem_namedFields_iff {r : Register} {name : String} {f : BitField} :
    (name, f) ∈ r.namedFields ↔ f ∈ r.bitFields ∧ f.name = some name := by
  rw [Register.namedFields, List.mem_filterMap]
  constructor
  · rintro ⟨g, hg, hname⟩
    cases hg' : g.name <;> simp_all
  · rintro ⟨hf, hname⟩
    exact ⟨f, hf, by rw [hname]; rfl⟩

/-- The names of a register of a model are those of a register of it and of its bit fields. -/
lemma mem_of_mem_nameGroups {g : GroupNames} (hg : g ∈ nameGroups m)
    {n : RegisterNames} (hn : n ∈ g.registers) :
    n.register ∈ m.allRegisters ∧ ∀ f ∈ n.fields,
      f.field ∈ n.register.bitFields ∧ f.enum? = n.register.enumFor? f.field := by
  have hnamed := (named_of_mem_nameGroups hg).registers_named n hn
  refine ⟨mem_allRegisters_of_mem_nameGroups hg hn, fun f hf => ?_⟩
  exact ⟨(mem_namedFields_iff.mp (hnamed.mem_namedFields hf)).1,
    (hnamed.fields_named f hf).enum_eq⟩

/-- All names of a model come from one scope, in which those of the preamble are taken. In the end
the names that were asked for are taken, too. -/
lemma takes_nameGroups (m : Model) :
    ∃ s, Takes (.ofList Preamble.names) s ((nameGroups m).flatMap GroupNames.claimed) ∧
      ∀ group ∈ m.groups, ∀ r ∈ group.2,
        groupWord group.1 ++ Name.pascal r.name ∈ s.taken := by
  have htakes := fun group s => (claimGroup_spec group s).2.2.1
  have hasked := fun group s => (claimGroup_spec group s).2.2.2
  rw [nameGroups_eq]
  refine ⟨_, takes_mapM htakes m.groups _, fun group hgroup r hr => ?_⟩
  exact mem_taken_of_mem_asked _ htakes hasked hgroup (List.mem_map_of_mem hr)

lemma not_mem_preamble_of_mem_claimed {g : GroupNames} (hg : g ∈ nameGroups m) {name : String}
    (hname : name ∈ g.claimed) : name ∉ Preamble.names := by
  obtain ⟨s, htakes, _⟩ := takes_nameGroups m
  rw [← NameScope.mem_taken_ofList]
  exact htakes.fresh name (List.mem_flatMap.mpr ⟨g, hg, hname⟩)

/-- The name that is asked for as that of an accessor is handed out, if not for the accessor then for
something before it. -/
lemma exists_mem_claimed {group : Option String × List Register} (hgroup : group ∈ m.groups)
    {r : Register} (hr : r ∈ group.2)
    (hfree : groupWord group.1 ++ Name.pascal r.name ∉ Preamble.names) :
    ∃ g ∈ nameGroups m, groupWord group.1 ++ Name.pascal r.name ∈ g.claimed := by
  obtain ⟨s, htakes, htaken⟩ := takes_nameGroups m
  have hmem := (htakes.mem_iff _).mp (htaken group hgroup r hr)
  rw [NameScope.mem_taken_ofList] at hmem
  exact List.mem_flatMap.mp (hmem.resolve_left hfree)

lemma accessor_mem_claimed {g : GroupNames} {n : RegisterNames} (hn : n ∈ g.registers) :
    n.accessor ∈ g.claimed :=
  List.mem_append_right _ (List.mem_flatMap.mpr ⟨n, hn, List.mem_cons_self⟩)

end Models

end RegisterMap.Accessor
