import RegisterMap.Proofs.Members
import RegisterMap.Proofs.Names
import RegisterMap.Proofs.Naming

/-!
# Members of generated classes

No class of the module for an accepted document has two members of the same name. Every class has
fixed members around those that are named for the entities of the document, and what the document
was checked for keeps all of them apart.
-/

namespace RegisterMap.Accessor

variable {α β ε : Type}

/-! ### Results -/

/-- Whatever a computation results in has a property. -/
def Yields (P : α → Prop) (x : Except ε α) : Prop := ∀ a, x = .ok a → P a

namespace Yields

variable {P : α → Prop} {Q : β → Prop}

lemma ok {a : α} (h : P a) : Yields P (.ok a : Except ε α) := by
  rintro _ ⟨⟩
  exact h

lemma error (e : ε) : Yields P (.error e) := by
  intro a h
  cases h

lemma bind {x : Except ε α} {f : α → Except ε β} (hx : Yields P x)
    (hf : ∀ a, P a → Yields Q (f a)) : Yields Q (x >>= f) := by
  cases x with
  | error e => exact error e
  | ok a => exact hf a (hx a rfl)

lemma imp {P' : α → Prop} {x : Except ε α} (hx : Yields P x) (h : ∀ a, P a → P' a) :
    Yields P' x := fun a ha => h a (hx a ha)

/-- What follows a result need not depend on it. -/
lemma after {x : Except ε α} {f : α → Except ε β} (hf : ∀ a, Yields Q (f a)) :
    Yields Q (x >>= f) :=
  bind (P := fun _ => True) (fun _ _ => trivial) fun a _ => hf a

lemma some {x : Except ε α} (hx : Yields P x) :
    Yields (fun a? => ∀ a ∈ a?, P a) (some <$> x) := by
  cases x with
  | error e => exact error e
  | ok a => exact ok (by simpa using hx a rfl)

lemma mapM {f : α → Except ε β} {as : List α} (hf : ∀ a ∈ as, Yields Q (f a)) :
    Yields (fun bs => ∀ b ∈ bs, Q b) (as.mapM f) := by
  induction as with
  | nil => exact ok (by simp)
  | cons a as ih =>
    rw [List.mapM_cons]
    refine (hf a List.mem_cons_self).bind fun b hb => ?_
    refine (ih fun a' ha' => hf a' (List.mem_cons_of_mem _ ha')).bind fun bs hbs => ok ?_
    exact List.forall_mem_cons.mpr ⟨hb, hbs⟩

/-- Each value of a list has a result among those of the list. -/
lemma mapM_mem {R : α → β → Prop} {f : α → Except ε β} {as : List α}
    (hf : ∀ a ∈ as, Yields (R a) (f a)) :
    Yields (fun bs => ∀ a ∈ as, ∃ b ∈ bs, R a b) (as.mapM f) := by
  induction as with
  | nil => exact ok (by simp)
  | cons a as ih =>
    rw [List.mapM_cons]
    refine (hf a List.mem_cons_self).bind fun b hb => ?_
    refine (ih fun a' ha' => hf a' (List.mem_cons_of_mem _ ha')).bind fun bs hbs => ok ?_
    refine List.forall_mem_cons.mpr ⟨⟨b, List.mem_cons_self, hb⟩, fun a' ha' => ?_⟩
    obtain ⟨b', hb', hr⟩ := hbs a' ha'
    exact ⟨b', List.mem_cons_of_mem _ hb', hr⟩

/-- What each result says of the value that it comes from, the list of the results says of theirs. -/
lemma mapM_map {γ : Type} {p : β → γ} {q : α → γ} {f : α → Except ε β}
    (hf : ∀ a, Yields (fun b => p b = q a) (f a)) (as : List α) :
    Yields (fun bs => bs.map p = as.map q) (as.mapM f) := by
  induction as with
  | nil => exact ok rfl
  | cons a as ih =>
    rw [List.mapM_cons]
    exact (hf a).bind fun b hb => ih.bind fun bs hbs => ok (by simp [hb, hbs])

end Yields

/-! ### Classes -/

/-- A class of which no two members have the same name. -/
def Class.MembersDiffer (c : Class) : Prop := (c.members.map Member.name).Nodup

lemma map_name_sectionsOf (ms : List Method) :
    (sectionsOf ms).flatten.map Member.name = ms.map Method.name := by
  induction ms with
  | nil => rfl
  | cons m ms ih => simpa [sectionsOf, Member.name] using ih

/-- The members of a class differ if they are fixed members, in three parts, around constants and
methods of its own that differ from each other and from the fixed ones. -/
lemma membersDiffer_of_eq {c : Class} {fixed methods : List String}
    (constants first second third : List String)
    (h : (constants ++ methods ++ fixed).Nodup)
    (hnames : c.members.map Member.name = first ++ constants ++ (second ++ methods ++ third))
    (hfixed : (first ++ second ++ third).Sublist fixed) : c.MembersDiffer := by
  have hperm : (first ++ constants ++ (second ++ methods ++ third)).Perm
      (constants ++ methods ++ (first ++ second ++ third)) := by
    refine List.perm_iff_count.mpr fun name => ?_
    simp only [List.count_append]
    omega
  rw [Class.MembersDiffer, hnames, hperm.nodup_iff]
  exact h.sublist ((List.Sublist.refl _).append hfixed)

section Fields

variable {r : RegisterNames} {f : FieldNames}

/-- A bit field whose named values differ as constants. -/
def FieldNames.ValuesDiffer (f : FieldNames) : Prop :=
  (f.values.map (·.name)).Pairwise fun a b => Name.constant a ≠ Name.constant b

lemma FieldNames.ValuesDiffer.snake_ne (h : f.ValuesDiffer) :
    (f.values.map (·.name)).Pairwise fun a b => Name.snake a ≠ Name.snake b :=
  h.imp fun hne heq => hne (Name.snake_eq_snake_iff.mp heq)

lemma yields_closedClass {e : RegisterEnum}
    (hdiffer : (e.values.map (·.name)).Pairwise fun a b => Name.constant a ≠ Name.constant b) :
    Yields Class.MembersDiffer (closedClass r f e) := by
  unfold closedClass
  refine .after fun maxValue => ?_
  cases hall : definesAll e maxValue
  · exact .error _
  refine .after fun doc => .ok ?_
  refine membersDiffer_of_eq _ [] (["from_raw", "to_raw", "bits"] ++
    (if f.isSingle then bitMethods else []).map Method.name) ["__repr__"]
    (nodup_readMembers hdiffer) ?_ ?_
  · rw [Class.members, List.flatten_append, List.map_append, map_name_sectionsOf]
    simp only [List.map_append, List.map_map, List.flatten_singleton]
    rfl
  · split_ifs <;> decide

lemma yields_openClass (hdiffer : f.ValuesDiffer) : Yields Class.MembersDiffer (openClass f) := by
  unfold openClass
  refine .after fun doc => .ok ?_
  refine membersDiffer_of_eq _ ["__slots__"] (["__init__", "from_raw", "to_raw", "bits"] ++
    (if f.isSingle then bitMethods else []).map Method.name) ["__eq__", "__hash__", "__repr__"]
    (nodup_readMembers hdiffer) ?_ ?_
  · rw [Class.members, List.flatten_append, List.map_append, map_name_sectionsOf]
    have hconstants : (f.enum?.toList.map fun e =>
        e.values.map fun v => Member.constant (valueConstant v)).flatten =
        f.values.map fun v => Member.constant (valueConstant v) := by
      cases h : f.enum? <;> simp [FieldNames.values, h]
    rw [List.flatten_append, hconstants]
    simp only [List.map_append, List.map_map, List.flatten_singleton]
    rfl
  · split_ifs <;> decide

lemma yields_readClass? (hdiffer : f.ValuesDiffer) :
    Yields (fun c? => ∀ c ∈ c?, c.MembersDiffer) (readClass? r f) := by
  have hnone : Yields (fun c? => ∀ c ∈ c?, Class.MembersDiffer c)
      (.ok none : Except Error (Option Class)) := .ok (by simp)
  have hclosed := hdiffer
  unfold readClass?
  split
  next e he =>
    have hvalues : f.values = e.values := by simp [FieldNames.values, he]
    rw [FieldNames.ValuesDiffer, hvalues] at hclosed
    split_ifs
    · exact (yields_closedClass hclosed).some
    · exact (yields_openClass hdiffer).some
    · exact hnone
  next =>
    split_ifs
    · exact (yields_openClass hdiffer).some
    · exact hnone

lemma yields_writeProxy (hdiffer : f.ValuesDiffer) :
    Yields Class.MembersDiffer (writeProxy r f) := by
  have hsetters := Yields.mapM_map (f := setter r) (p := Method.name)
    (q := fun v => avoid proxyMethods (Name.snake v.name)) (fun v => .after fun doc => .ok rfl)
    f.values
  unfold writeProxy
  refine .after fun doc => hsetters.bind fun setters hnames => .ok ?_
  have hnodup := avoidable_proxyMembers.nodup hdiffer.snake_ne
  rw [List.map_map] at hnodup
  refine membersDiffer_of_eq [] ["__slots__"] (["__init__", "bits"] ++
    (if f.isSingle then ["bit", "set_bit", "clear_bit"] else []) ++
    if f.isClosed then ["variant"] else []) [] hnodup ?_ ?_
  · rw [Class.members, List.flatten_append, List.map_append, map_name_sectionsOf]
    simp only [List.map_append, hnames]
    split_ifs <;> simp [Method.simple, Member.name, Constant.plain]
  · split_ifs <;> decide

end Fields

section Registers

variable {n : RegisterNames}

lemma yields_fieldMethods (result body : FieldNames → String) :
    Yields (fun ms => ms.map Method.name = n.fields.map (·.method))
      (fieldMethods n result body) := by
  unfold fieldMethods
  refine .mapM_map (fun f => .after fun doc => ?_) n.fields
  exact .ok rfl

lemma yields_readValue (hdiffer : (n.fields.map (·.method) ++ valueMembers).Nodup) :
    Yields Class.MembersDiffer (readValue n) := by
  unfold readValue
  refine .after fun doc => (yields_fieldMethods _ _).bind fun fields hnames => .ok ?_
  refine membersDiffer_of_eq [] ["__slots__"] ["__init__", "raw_bits"]
    ["__eq__", "__hash__", "__repr__"] hdiffer ?_ (by decide)
  rw [Class.members, List.flatten_append, List.map_append, map_name_sectionsOf]
  simp only [List.map_append, hnames]
  rfl

lemma yields_writeValue (hdiffer : (n.fields.map (·.method) ++ valueMembers).Nodup) :
    Yields Class.MembersDiffer (writeValue n) := by
  unfold writeValue
  refine .after fun doc => (yields_fieldMethods _ _).bind fun fields hnames => .ok ?_
  refine membersDiffer_of_eq [] ["__slots__"] ["__init__", "raw_bits", "set_raw_bits"]
    ["__repr__"] hdiffer ?_ (by decide)
  rw [Class.members, List.flatten_append, List.map_append, map_name_sectionsOf]
  simp only [List.map_append, hnames]
  rfl

lemma yields_ioProtocol : Yields Class.MembersDiffer (ioProtocol n) :=
  .after fun _ => .ok List.nodup_nil

/-- The members that an accessor can have, with the kinds of its locations. -/
def accessorMembers (read write : LocationKind) : List String :=
  ["NAME", "GROUP", "WIDTH", (Trait.mk read .read).constant, (Trait.mk write .write).constant,
   "SLOT_INDEX", "CAPABILITIES", "__init__", "read", "write", "modify"]

lemma nodup_accessorMembers (read write : LocationKind) : (accessorMembers read write).Nodup := by
  cases read <;> cases write <;> decide

private lemma ite_sublist (p : Prop) [Decidable p] (as : List α) :
    (if p then as else []).Sublist as := by
  split_ifs <;> simp

lemma accesses_sublist (r : Register) : (accesses r).Sublist
    [(⟨r.readLocation.kind, .read⟩, r.readLocation),
     (⟨r.writeLocation.kind, .write⟩, r.writeLocation)] :=
  (ite_sublist _ [_]).append (ite_sublist _ [_])

/-- The constants of an accessor, followed by some of its methods, are members that it can have. -/
lemma accessorMembers_sublist {methods : List String}
    (h : methods.Sublist ["__init__", "read", "write", "modify"]) :
    ((accessorConstants n).map Constant.name ++ methods).Sublist
      (accessorMembers n.register.readLocation.kind n.register.writeLocation.kind) := by
  have haccesses := (accesses_sublist n.register).map fun access => access.1.constant
  have hslot : (n.register.slot.toList.map fun _ => "SLOT_INDEX").Sublist ["SLOT_INDEX"] := by
    cases n.register.slot <;> simp
  have hfirst := List.Sublist.refl ["NAME", "GROUP", "WIDTH"]
  have hlast := List.Sublist.refl ["CAPABILITIES"]
  have hnames := (((hfirst.append haccesses).append hslot).append hlast).append h
  simp only [accessorConstants, List.map_append, List.map_map]
  exact hnames

lemma yields_accessorClass : Yields Class.MembersDiffer (accessorClass n) := by
  have hwriting (name summary start : String) :
      Yields (fun m => m.name = name) (writing n name summary start) :=
    .after fun doc => .ok rfl
  unfold accessorClass
  refine .after fun doc => (hwriting _ _ _).bind fun write hwrite =>
    (hwriting _ _ _).bind fun modify hmodify => .ok ?_
  have hmethods := (((List.Sublist.refl ["__init__"]).append
    (ite_sublist (n.register.isReadable = true) ["read"])).append
    (ite_sublist (n.hasWrite = true) ["write"])).append (ite_sublist (n.hasModify = true) ["modify"])
  have hnodup := (nodup_accessorMembers _ _).sublist (accessorMembers_sublist (n := n) hmethods)
  rw [Class.MembersDiffer, Class.members, List.flatten_append, List.map_append,
    map_name_sectionsOf]
  convert hnodup using 2
  · simp [Function.comp_def, Member.name]
  · simp only [List.map_append, apply_ite (List.map Method.name), List.map_cons, List.map_nil, hwrite,
      hmodify]
    rfl

end Registers

/-! ### Items -/

/-- The names that the members of the classes of a register are made from leave the members
different. -/
structure RegisterNames.MembersDiffer (n : RegisterNames) : Prop where
  methods : (n.fields.map (·.method) ++ valueMembers).Nodup
  values : ∀ f ∈ n.fields, f.ValuesDiffer

/-- Every class among some items has members that differ. -/
def AllMembersDiffer (items : List Item) : Prop := ∀ c, .classDef c ∈ items → c.MembersDiffer

lemma allMembersDiffer_classes {classes : List Class} (h : ∀ c ∈ classes, c.MembersDiffer) :
    AllMembersDiffer (classes.map .classDef) := by
  intro c hc
  obtain ⟨_, hmem, ⟨⟩⟩ := List.mem_map.mp hc
  exact h c hmem

lemma AllMembersDiffer.append {items items' : List Item} (h : AllMembersDiffer items)
    (h' : AllMembersDiffer items') : AllMembersDiffer (items ++ items') := by
  intro c hc
  exact (List.mem_append.mp hc).elim (h c) (h' c)

lemma allMembersDiffer_flatten {parts : List (List Item)}
    (h : ∀ items ∈ parts, AllMembersDiffer items) : AllMembersDiffer parts.flatten := by
  intro c hc
  obtain ⟨items, hitems, hc⟩ := List.mem_flatten.mp hc
  exact h items hitems c hc

section Items

variable {n : RegisterNames} {g : GroupNames}

lemma yields_readItems (h : n.MembersDiffer) :
    Yields (fun classes => ∀ c ∈ classes, Class.MembersDiffer c) (readItems n) := by
  unfold readItems
  refine (Yields.mapM fun f hf => yields_readClass? (h.values f hf)).bind fun fields hfields => ?_
  have hresult (value : Option Class) (hvalue : ∀ c ∈ value, c.MembersDiffer) :
      ∀ c ∈ fields.reduceOption ++ value.toList, c.MembersDiffer := by
    intro c hc
    rcases List.mem_append.mp hc with hc | hc
    · exact hfields (some c) (List.reduceOption_mem_iff.mp hc) c rfl
    · exact hvalue c (Option.mem_toList.mp hc)
  dsimp only
  split_ifs
  · exact (yields_readValue h.methods).some.bind fun value hvalue => .ok (hresult value hvalue)
  · exact .ok (hresult none (by simp))

lemma yields_writeItems (h : n.MembersDiffer) :
    Yields (fun classes => ∀ c ∈ classes, Class.MembersDiffer c) (writeItems n) := by
  unfold writeItems
  split_ifs
  · refine (Yields.mapM fun f hf => yields_writeProxy (h.values f hf)).bind fun proxies hproxies =>
      (yields_writeValue h.methods).bind fun value hvalue => .ok ?_
    simpa [or_imp, forall_and] using ⟨hproxies, hvalue⟩
  · exact .ok (by simp)

lemma yields_registerItems (h : n.MembersDiffer) : Yields AllMembersDiffer (registerItems n) := by
  unfold registerItems
  refine (yields_readItems h).bind fun reading hreading =>
    (yields_writeItems h).bind fun writing hwriting =>
    yields_ioProtocol.bind fun io hio =>
    yields_accessorClass.bind fun accessor haccessor => .ok ?_
  refine AllMembersDiffer.append ?_ (allMembersDiffer_classes ?_)
  · unfold rangeItems
    split_ifs <;> intro c hc <;> simp at hc
  · intro c hc
    simp only [List.mem_append, List.mem_cons, List.not_mem_nil, or_false] at hc
    rcases hc with (hc | hc) | rfl | rfl
    · exact hreading c hc
    · exact hwriting c hc
    · exact hio
    · exact haccessor

lemma yields_containerClass (h : (g.registers.map getterName ++ containerMembers).Nodup) :
    Yields Class.MembersDiffer (containerClass g) := by
  unfold containerClass
  refine .after fun doc => .after fun showing => .ok ?_
  refine membersDiffer_of_eq [] ["GROUP", "CAPABILITIES"] ["__init__"] ["debug_registers"] h ?_
    (List.Sublist.refl _)
  have hcapabilities : (capabilitiesConstant g).name = "CAPABILITIES" := by
    unfold capabilitiesConstant
    split_ifs <;> rfl
  rw [Class.members, List.flatten_append, List.map_append, map_name_sectionsOf]
  simp [Member.name, hcapabilities, Constant.plain, Method.simple, Function.comp_def]

lemma yields_groupItems (h : (g.registers.map getterName ++ containerMembers).Nodup)
    (hregisters : ∀ n ∈ g.registers, n.MembersDiffer) : Yields AllMembersDiffer (groupItems g) := by
  have hmarker : Yields Class.MembersDiffer (markerClass g) := .after fun doc => .ok List.nodup_nil
  unfold groupItems
  refine hmarker.bind fun marker hmarker =>
    (Yields.mapM fun n hn => yields_registerItems (hregisters n hn)).bind fun parts hparts =>
    (yields_containerClass h).bind fun container hcontainer => .ok ?_
  refine AllMembersDiffer.append (.append ?_ (allMembersDiffer_flatten hparts)) ?_
  · simpa [AllMembersDiffer] using hmarker
  · simpa [AllMembersDiffer] using hcontainer

/-- The items of a group have a class like its container, and what the items of a register have they
have for each register of the group. -/
lemma yields_groupItems_of_registerItems {P : RegisterNames → List Item → Prop} {Q : Class → Prop}
    (hmono : ∀ {n items items'}, P n items → items ⊆ items' → P n items')
    (hregister : ∀ n, Yields (P n) (registerItems n)) (hcontainer : Yields Q (containerClass g)) :
    Yields (fun items => (∃ c, .classDef c ∈ items ∧ Q c) ∧ ∀ n ∈ g.registers, P n items)
      (groupItems g) := by
  unfold groupItems
  refine .after fun marker =>
    (Yields.mapM_mem fun n _ => hregister n).bind fun parts hparts =>
    hcontainer.bind fun container hcontainer => .ok ⟨⟨container, by simp, hcontainer⟩, ?_⟩
  intro n hn
  obtain ⟨items, hitems, hregister⟩ := hparts n hn
  refine hmono hregister fun item hitem => ?_
  exact List.mem_append_left _ (List.mem_append_right _ (List.mem_flatten_of_mem hitems hitem))

/-- What the items of a group have, the items of the model have for each of its groups. -/
lemma yields_modelItems_of_groupItems {P : GroupNames → List Item → Prop}
    (hmono : ∀ {g items items'}, P g items → items ⊆ items' → P g items')
    (hgroup : ∀ g, Yields (P g) (groupItems g)) (m : Model) :
    Yields (fun items => ∀ g ∈ nameGroups m, P g items) (modelItems m) := by
  unfold modelItems
  refine (Yields.mapM_mem fun g _ => hgroup g).bind fun parts hparts => .ok fun g hg => ?_
  obtain ⟨items, hitems, hgroup⟩ := hparts g hg
  exact hmono hgroup (List.subset_def.mpr (List.mem_flatten_of_mem hitems))

end Items

/-! ### Accepted documents -/

section Accepted

variable {root : Table} {m : Model} {g : GroupNames}

lemma membersDiffer_of_ofTable (h : Model.ofTable root = .ok m) (hg : g ∈ nameGroups m)
    {n : RegisterNames} (hn : n ∈ g.registers) : n.MembersDiffer := by
  have hdiffer := Model.namesDiffer_of_ofTable h (mem_allRegisters_of_mem_nameGroups hg hn)
  have hnamed := (named_of_mem_nameGroups hg).registers_named n hn
  constructor
  · have hnames : n.register.namedFields.map (·.1) = n.fields.map (·.name) := by
      rw [← hnamed.fields_eq, List.map_map]
      rfl
    have hmethods : n.fields.map (·.method) =
        (n.fields.map (·.name)).map fun name => avoid FieldNames.valueMethods (Name.snake name) := by
      rw [List.map_map]
      exact List.map_congr_left fun f hf => (hnamed.fields_named f hf).method_eq
    rw [hmethods, ← hnames]
    exact avoidable_valueMembers.nodup hdiffer.fields
  · intro f hf
    rw [FieldNames.ValuesDiffer, FieldNames.values, (hnamed.fields_named f hf).enum_eq]
    cases henum : n.register.enumFor? f.field with
    | none => exact .nil
    | some e => exact hdiffer.values e (List.mem_of_find?_eq_some henum)

lemma getters_nodup_of_ofTable (h : Model.ofTable root = .ok m) (hg : g ∈ nameGroups m) :
    (g.registers.map getterName ++ containerMembers).Nodup := by
  have hdiffer := (Model.groupNamed_of_ofTable h _ (mem_groups_of_mem_nameGroups hg)).names_differ
  have hgetters := avoidable_containerMembers.nodup hdiffer
  rw [List.map_map, List.map_map] at hgetters
  exact hgetters

lemma allMembersDiffer_of_ofTable (h : Model.ofTable root = .ok m) :
    Yields AllMembersDiffer (modelItems m) := by
  unfold modelItems
  refine (Yields.mapM fun g hg => ?_).bind fun parts hparts =>
    .ok (allMembersDiffer_flatten hparts)
  exact yields_groupItems (getters_nodup_of_ofTable h hg) fun n hn =>
    membersDiffer_of_ofTable h hg hn

/-- No class that is generated for an accepted document has two members of the same name. The getters
of a container differ from each other and from its fixed members, as do the methods for the bit
fields of a value, the setters of a write proxy, and the constants and comparators of a read
class. -/
theorem members_nodup_of_ofTable (h : Model.ofTable root = .ok m) :
    (∀ moduleName text, generate m moduleName = .ok text →
      ∃ head items, headCode m.description moduleName = .ok head ∧ modelItems m = .ok items ∧
        text = Code.text (head ++ Preamble.code ++ items.flatMap Item.code) ∧
        ∀ c, .classDef c ∈ items → (c.members.map Member.name).Nodup) ∧
      ∀ g ∈ nameGroups m,
        (g.registers.map getterName ++ containerMembers).Nodup ∧
        ∀ n ∈ g.registers,
          (n.fields.map (·.method) ++ valueMembers).Nodup ∧
          ∀ f ∈ n.fields,
            (f.values.map (fun v => avoid proxyMethods (Name.snake v.name)) ++ proxyMembers).Nodup ∧
            (f.values.map (fun v => Name.constant v.name) ++ f.values.map comparatorName ++
              readMembers).Nodup := by
  refine ⟨fun moduleName => ?_, fun g hg => ?_⟩
  · have hhead : Yields (fun head => headCode m.description moduleName = .ok head)
        (headCode m.description moduleName) := fun head hhead => hhead
    have hitems : Yields (fun items => modelItems m = .ok items ∧ AllMembersDiffer items)
        (modelItems m) := fun items hitems => ⟨hitems, allMembersDiffer_of_ofTable h items hitems⟩
    exact hhead.bind fun head hhead => hitems.bind fun items hitems =>
      .ok ⟨head, items, hhead, hitems.1, rfl, hitems.2⟩
  · refine ⟨getters_nodup_of_ofTable h hg, fun n hn => ?_⟩
    have hdiffer := membersDiffer_of_ofTable h hg hn
    refine ⟨hdiffer.methods, fun f hf => ⟨?_, nodup_readMembers (hdiffer.values f hf)⟩⟩
    have hsetters := avoidable_proxyMembers.nodup (hdiffer.values f hf).snake_ne
    rw [List.map_map] at hsetters
    exact hsetters

/-- A document whose names are those of fixed members, up to their style. -/
def reservedDocument : Table :=
  [("register_description", .table [("name", .text "chip"), ("version", .text "0.1")]),
   ("register", .array [.table
     [("name", .text "DebugRegisters"), ("relative_address", .integer 0), ("size", .integer 8),
      ("access", .text "rw"),
      ("bit_fields", .array
        [.table [("bit", .text "7:2"), ("name", .text "RAW_BITS")],
         .table [("bit", .text "1"), ("name", .text "SetRawBits")],
         .table [("bit", .text "0"), ("name", .text "class")]]),
      ("enum", .array [.table
        [("name", .text "state"), ("bit", .text "0"), ("values", .array
          [.table [("value", .integer 1), ("name", .text "SetBit")],
           .table [("value", .integer 0), ("name", .text "None")]])]])]])]

def reservedRegister : Register :=
  { name := "DebugRegisters", access := .readWrite, size := .size8, readLocation := ⟨.relative, 0⟩,
    writeLocation := ⟨.relative, 0⟩,
    bitFields := [⟨⟨7, 2, by omega⟩, some "RAW_BITS", none⟩, ⟨.single 1, some "SetRawBits", none⟩,
      ⟨.single 0, some "class", none⟩],
    enums := [⟨"state", .single 0, [⟨1, "SetBit", none⟩, ⟨0, "None", none⟩], none, true⟩],
    description := none, slot := none }

def reservedModel : Model :=
  ⟨⟨"chip", .version01, none, none, none, none, .size64, none⟩, some (.list [reservedRegister])⟩

lemma ofTable_reservedDocument : Model.ofTable reservedDocument = .ok reservedModel := rfl

/-- The getter of the register of that document differs from the fixed member that it is named
like. -/
theorem members_nodup_reservedModel :
    Model.ofTable reservedDocument = .ok reservedModel ∧
      ∃ g ∈ nameGroups reservedModel, g.registers.map getterName = ["debug_registers_"] ∧
        (g.registers.map getterName ++ containerMembers).Nodup := by
  have hmembers := (members_nodup_of_ofTable ofTable_reservedDocument).2
  obtain ⟨g, hg, hgroup⟩ : ∃ g ∈ nameGroups reservedModel,
      (g.name, g.registers.map (·.register)) = (none, [reservedRegister]) := by
    rw [← List.mem_map, map_nameGroups]
    exact List.mem_singleton_self _
  refine ⟨ofTable_reservedDocument, g, hg, ?_, (hmembers g hg).1⟩
  have hgetters : g.registers.map getterName = (g.registers.map (·.register)).map fun r =>
      avoid containerMethods (Name.snake r.name) := by
    rw [List.map_map]
    rfl
  rw [hgetters, (Prod.mk.inj hgroup).2]
  decide

end Accepted

end RegisterMap.Accessor
