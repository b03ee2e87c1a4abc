import RegisterMap.Proofs.Classes
import RegisterMap.Proofs.Generation
import RegisterMap.Proofs.Layout

/-!
# Capabilities

The text of a capability says which group it is for, and can be told apart from that of any other
group, as the markers of the groups are all different. So a backend for one group never has what
another group requires, whatever the groups and their registers are called. In the text of a module
the container of a group lists the capabilities of the group, and each accessor those of its register.
-/

namespace RegisterMap.Accessor

/-! ### Texts -/

/-- The expression for an access in the group with a marker, which a backend may support. -/
def capabilityText (marker : String) (t : Trait) (size : RegisterSize) : String :=
  let kind := match t.kind with
    | .index => "INDEX"
    | .relative => "RELATIVE"
    | .absolute => "ABSOLUTE"
  let direction := match t.direction with
    | .read => "READ"
    | .write => "WRITE"
  s!"Capability({marker}, LocationKind.{kind}, " ++ s!"Direction.{direction}, {size.bits})"

/-- A separator that does not occur after it separates in only one way. -/
lemma eq_of_append_cons_eq {α : Type} {c : α} {as bs as' bs' : List α} (h : c ∉ bs) (h' : c ∉ bs')
    (heq : as ++ c :: bs = as' ++ c :: bs') : as = as' ∧ bs = bs' := by
  rcases List.append_eq_append_iff.mp heq with ⟨_ | ⟨_, ds⟩, has, hbs⟩ | ⟨_ | ⟨_, ds⟩, has, hbs⟩
  · simp_all
  · simp_all
  · simp_all
  · simp_all

section Texts

variable {marker marker' : String} {t t' : Trait} {size size' : RegisterSize}

lemma capabilityText_eq (marker : String) (t : Trait) (size : RegisterSize) :
    capabilityText marker t size = s!"Capability({marker}, LocationKind.{kindMember t.kind}, " ++
      s!"Direction.{t.direction.member}, {size.bits})" := by
  obtain ⟨kind, direction⟩ := t
  cases kind <;> cases direction <;> rfl

/-- The text of a capability is separated by commas, after which only its marker might have others. -/
lemma toList_capabilityText (marker : String) (t : Trait) (size : RegisterSize) :
    (capabilityText marker t size).toList =
      (("Capability(".toList ++ marker.toList ++
        ',' :: (" LocationKind." ++ kindMember t.kind).toList) ++
        ',' :: (" Direction." ++ t.direction.member).toList) ++
        ',' :: (" " ++ size.bits.repr ++ ")").toList := by
  simp [capabilityText_eq, toString]

lemma comma_not_mem_kind (kind : LocationKind) :
    ',' ∉ (" LocationKind." ++ kindMember kind).toList := by
  cases kind <;> decide

lemma comma_not_mem_direction (direction : Direction) :
    ',' ∉ (" Direction." ++ direction.member).toList := by
  cases direction <;> decide

lemma comma_not_mem_bits (size : RegisterSize) : ',' ∉ (" " ++ size.bits.repr ++ ")").toList := by
  cases size <;> decide

lemma kindMember_injective : Function.Injective kindMember := by
  intro kind kind' h
  cases kind <;> cases kind' <;> simp_all [kindMember]

lemma Direction.member_injective : Function.Injective Direction.member := by
  intro direction direction' h
  cases direction <;> cases direction' <;> simp_all [member]

lemma bits_injective : Function.Injective RegisterSize.bits := by
  intro size size' h
  cases size <;> cases size' <;> simp_all [RegisterSize.bits]

/-- The text of a capability tells what it is for. -/
lemma capabilityText_inj :
    capabilityText marker t size = capabilityText marker' t' size' ↔
      marker = marker' ∧ t = t' ∧ size = size' := by
  constructor
  · intro h
    rw [← String.toList_inj, toList_capabilityText, toList_capabilityText] at h
    obtain ⟨h, hbits⟩ := eq_of_append_cons_eq (comma_not_mem_bits _) (comma_not_mem_bits _) h
    obtain ⟨h, hdirection⟩ :=
      eq_of_append_cons_eq (comma_not_mem_direction _) (comma_not_mem_direction _) h
    obtain ⟨h, hkind⟩ := eq_of_append_cons_eq (comma_not_mem_kind _) (comma_not_mem_kind _) h
    have hmarker : marker = marker' := String.toList_inj.mp (List.append_cancel_left h)
    rw [String.toList_inj, String.append_right_inj] at hkind hdirection
    rw [String.toList_inj, String.append_left_inj, String.append_right_inj, Nat.repr_inj] at hbits
    have hkind : t.kind = t'.kind := kindMember_injective hkind
    have hdirection : t.direction = t'.direction := Direction.member_injective hdirection
    have hsize : size = size' := bits_injective hbits
    cases t
    cases t'
    simp_all
  · rintro ⟨rfl, rfl, rfl⟩
    rfl

end Texts

/-! ### Registers -/

namespace RegisterNames

variable {n : RegisterNames}

lemma capability_eq (n : RegisterNames) (t : Trait) :
    n.capability t = capabilityText n.groupClass t n.register.size :=
  (capabilityText_eq _ _ _).symm

/-- A register requires to be read where it is read and to be written where it is written. -/
lemma mem_capabilities_iff {text : String} : text ∈ n.capabilities ↔ ∃ t : Trait,
    text = capabilityText n.groupClass t n.register.size ∧
      (n.register.isReadable = true ∧ t = ⟨n.register.readLocation.kind, .read⟩ ∨
        n.register.isWritable = true ∧ t = ⟨n.register.writeLocation.kind, .write⟩) := by
  simp only [capabilities, accesses, capability_eq, List.map_append, List.mem_append, and_or_left,
    exists_or]
  split_ifs <;> simp_all

end RegisterNames

/-! ### Groups -/

section Groups

variable {m : Model} {g g' : GroupNames} {n : RegisterNames}

lemma GroupNames.nodup_capabilities (g : GroupNames) : g.capabilities.Nodup := nodup_eraseDups _

lemma GroupNames.mem_capabilities_iff {text : String} :
    text ∈ g.capabilities ↔ ∃ n ∈ g.registers, text ∈ n.capabilities := by
  rw [capabilities, List.mem_eraseDups, List.mem_flatMap]

/-- A register requires only what is for its own group. -/
lemma exists_of_mem_capabilities (hg : g ∈ nameGroups m) (hn : n ∈ g.registers) {text : String}
    (htext : text ∈ n.capabilities) : ∃ t, text = capabilityText g.marker t n.register.size := by
  obtain ⟨t, rfl, _⟩ := RegisterNames.mem_capabilities_iff.mp htext
  exact ⟨t, by rw [((named_of_mem_nameGroups hg).registers_named n hn).groupClass_eq]⟩

lemma capabilityText_mem_iff (hg : g ∈ nameGroups m) (hn : n ∈ g.registers) (t : Trait) :
    capabilityText g.marker t n.register.size ∈ n.capabilities ↔
      n.register.isReadable = true ∧ t = ⟨n.register.readLocation.kind, .read⟩ ∨
        n.register.isWritable = true ∧ t = ⟨n.register.writeLocation.kind, .write⟩ := by
  rw [RegisterNames.mem_capabilities_iff,
    ((named_of_mem_nameGroups hg).registers_named n hn).groupClass_eq]
  constructor
  · rintro ⟨t', htext, h⟩
    obtain ⟨_, rfl, _⟩ := capabilityText_inj.mp htext
    exact h
  · intro h
    exact ⟨t, rfl, h⟩

/-- The markers of the groups of a model come from one scope. -/
lemma pairwise_marker_ne (m : Model) : (nameGroups m).Pairwise fun g g' => g.marker ≠ g'.marker := by
  obtain ⟨s, htakes, _⟩ := takes_nameGroups m
  refine (List.nodup_flatMap.mp htakes.nodup).2.imp fun {g g'} hdisjoint heq => ?_
  exact hdisjoint (a := g.marker) List.mem_cons_self (heq ▸ List.mem_cons_self)

lemma disjoint_capabilities (hg : g ∈ nameGroups m) (hg' : g' ∈ nameGroups m)
    (hne : g.marker ≠ g'.marker) {n' : RegisterNames} (hn : n ∈ g.registers)
    (hn' : n' ∈ g'.registers) : n.capabilities.Disjoint n'.capabilities := by
  intro text htext htext'
  obtain ⟨t, rfl⟩ := exists_of_mem_capabilities hg hn htext
  obtain ⟨t', heq⟩ := exists_of_mem_capabilities hg' hn' htext'
  exact hne (capabilityText_inj.mp heq).1

lemma GroupNames.disjoint_capabilities (hg : g ∈ nameGroups m) (hg' : g' ∈ nameGroups m)
    (hne : g.marker ≠ g'.marker) : g.capabilities.Disjoint g'.capabilities := by
  intro text htext htext'
  obtain ⟨n, hn, htext⟩ := mem_capabilities_iff.mp htext
  obtain ⟨n', hn', htext'⟩ := mem_capabilities_iff.mp htext'
  exact Accessor.disjoint_capabilities hg hg' hne hn hn' htext htext'

end Groups

/-! ### Generated classes -/

section Classes

variable {m : Model} {g : GroupNames} {n : RegisterNames}

/-- Among some items there is a class with a name and a constant. -/
def Declares (name : String) (constant : Constant) (items : List Item) : Prop :=
  ∃ c, .classDef c ∈ items ∧ c.name = name ∧ .constant constant ∈ c.members

lemma Declares.mono {name : String} {constant : Constant} {items items' : List Item}
    (h : Declares name constant items) (hsub : items ⊆ items') : Declares name constant items' := by
  obtain ⟨c, hc, hname, hconstant⟩ := h
  exact ⟨c, hsub hc, hname, hconstant⟩

/-- A constant that is declared stands among the lines of its class. -/
lemma Declares.hasClass {name : String} {constant : Constant} {items : List Item}
    (h : Declares name constant items) (hne : ∀ line ∈ constant.code, line ≠ "") :
    HasClass name constant.code (items.flatMap Item.code) := by
  obtain ⟨c, hc, rfl, hconstant⟩ := h
  exact hasClass_of_mem hc hconstant hne

/-- The lines with which a container declares capabilities. -/
def containerLines (capabilities : List String) : Code :=
  if capabilities = [] then ["CAPABILITIES: FrozenSet[Capability] = frozenset()"]
  else
    "CAPABILITIES: FrozenSet[Capability] = frozenset([" ::
      (capabilities.map fun text => "    " ++ text ++ ",") ++ ["])"]

/-- The line with which an accessor declares capabilities. -/
def accessorLine (capabilities : List String) : String :=
  "CAPABILITIES = (" ++ String.intercalate ", " capabilities ++ ",)"

lemma code_capabilitiesConstant (g : GroupNames) :
    (capabilitiesConstant g).code = containerLines g.capabilities := by
  have hlines : Code.indent (g.capabilities.map (· ++ ",")) =
      g.capabilities.map fun text => "    " ++ text ++ "," := by
    rw [Code.indent_of_forall_ne (by simp), List.map_map]
    simp [Function.comp_def, String.append_assoc]
  unfold capabilitiesConstant containerLines
  by_cases hempty : g.capabilities = []
  · simp [hempty, Constant.code, toString]
  · simp [hempty, hlines, Constant.code, toString]

lemma forall_containerLines_ne (capabilities : List String) :
    ∀ line ∈ containerLines capabilities, line ≠ "" := by
  unfold containerLines
  split_ifs
  · simp
  · simp only [List.cons_append, List.forall_mem_cons, List.forall_mem_append, List.forall_mem_map]
    simp

/-- The capabilities of a register as a constant of its accessor. -/
def accessorCapabilities (n : RegisterNames) : Constant :=
  .plain "CAPABILITIES" ("(" ++ String.intercalate ", " n.capabilities ++ ",)")

lemma toList_accessorLine (capabilities : List String) : (accessorLine capabilities).toList =
    "CAPABILITIES = ".toList ++ ("(" ++ String.intercalate ", " capabilities ++ ",)").toList := by
  have hline : accessorLine capabilities =
    "CAPABILITIES = (" ++ String.intercalate ", " capabilities ++ ",)" := rfl
  simp [hline]

lemma accessorLine_ne (capabilities : List String) : accessorLine capabilities ≠ "" := by
  intro h
  have hlist := toList_accessorLine capabilities
  rw [h] at hlist
  simp at hlist

lemma code_accessorCapabilities (n : RegisterNames) :
    (accessorCapabilities n).code = [accessorLine n.capabilities] := by
  have hcode : (accessorCapabilities n).code = ["CAPABILITIES" ++ "" ++ " = " ++
    ("(" ++ String.intercalate ", " n.capabilities ++ ",)")] := rfl
  rw [hcode, List.singleton_inj, ← String.toList_inj, toList_accessorLine]
  simp

lemma yields_accessorClass_capabilities (n : RegisterNames) :
    Yields (fun c => c.name = n.accessor ∧ .constant (accessorCapabilities n) ∈ c.members)
      (accessorClass n) := by
  unfold accessorClass
  refine .after fun doc => .after fun write => .after fun modify => .ok ⟨rfl, ?_⟩
  refine List.mem_flatten_of_mem List.mem_cons_self (List.mem_map_of_mem ?_)
  exact List.mem_append_right _ List.mem_cons_self

lemma yields_registerItems_capabilities (n : RegisterNames) :
    Yields (Declares n.accessor (accessorCapabilities n)) (registerItems n) := by
  unfold registerItems
  refine .after fun reading => .after fun writing => .after fun io =>
    (yields_accessorClass_capabilities n).bind fun accessor ⟨hname, hmem⟩ => .ok ?_
  exact ⟨accessor, by simp, hname, hmem⟩

lemma yields_containerClass_capabilities (g : GroupNames) :
    Yields (fun c => c.name = g.container ∧ .constant (capabilitiesConstant g) ∈ c.members)
      (containerClass g) := by
  unfold containerClass
  refine .after fun doc => .after fun showing => .ok ⟨rfl, ?_⟩
  exact List.mem_flatten_of_mem List.mem_cons_self (List.mem_cons_of_mem _ List.mem_cons_self)

/-- Among some items the capabilities of a group and of its registers are constants of their
classes. -/
def DeclaredAmong (g : GroupNames) (items : List Item) : Prop :=
  Declares g.container (capabilitiesConstant g) items ∧
    ∀ n ∈ g.registers, Declares n.accessor (accessorCapabilities n) items

lemma DeclaredAmong.mono {items items' : List Item} (h : DeclaredAmong g items)
    (hsub : items ⊆ items') : DeclaredAmong g items' :=
  ⟨h.1.mono hsub, fun n hn => (h.2 n hn).mono hsub⟩

lemma yields_groupItems_capabilities (g : GroupNames) : Yields (DeclaredAmong g) (groupItems g) :=
  yields_groupItems_of_registerItems Declares.mono yields_registerItems_capabilities
    (yields_containerClass_capabilities g)

lemma yields_modelItems_capabilities (m : Model) :
    Yields (fun items => ∀ g ∈ nameGroups m, DeclaredAmong g items) (modelItems m) :=
  yields_modelItems_of_groupItems (P := DeclaredAmong) DeclaredAmong.mono
    yields_groupItems_capabilities m

/-- Lines in which the container of a group lists the capabilities of the group, and the accessor of
each of its registers those of the register. -/
def DeclaresCapabilities (g : GroupNames) (lines : Code) : Prop :=
  HasClass g.container (containerLines g.capabilities) lines ∧
    ∀ n ∈ g.registers, HasClass n.accessor [accessorLine n.capabilities] lines

lemma DeclaredAmong.lines {items : List Item} (h : DeclaredAmong g items) (front : Code) :
    DeclaresCapabilities g (front ++ items.flatMap Item.code).trimmed := by
  have hlines {name : String} {body : Code} (hbody : body ≠ [])
      (hclass : HasClass name body (items.flatMap Item.code)) :
      HasClass name body (front ++ items.flatMap Item.code).trimmed := by
    simpa using (hclass.append front []).trimmed hbody
  have hcontainer := h.1.hasClass
  rw [code_capabilitiesConstant] at hcontainer
  refine ⟨hlines ?_ (hcontainer (forall_containerLines_ne _)), fun n hn => hlines (by simp) ?_⟩
  · unfold containerLines
    split_ifs <;> simp
  · have haccessor := (h.2 n hn).hasClass
    rw [code_accessorCapabilities] at haccessor
    exact haccessor (by simpa using accessorLine_ne n.capabilities)

/-- A document in which a register of the first group takes the name that the second group would
have. -/
def twinDocument : Table :=
  [("register_description", .table [("name", .text "chip"), ("version", .text "0.1")]),
   ("register", .table
     [("core", .array [.table
        [("name", .text "io_group"), ("absolute_address", .integer 0), ("size", .integer 16),
         ("access", .text "rw"),
         ("bit_fields", .array [.table [("bit", .text "15:0"), ("name", .text "code")]])]]),
      ("core_io", .array [.table
        [("name", .text "mode"), ("absolute_address", .integer 1), ("size", .integer 16),
         ("access", .text "w"),
         ("bit_fields", .array [.table [("bit", .text "15:0"), ("name", .text "code")]])]])])]

def twinRegister (name : String) (access : AccessMode) (address : Nat) : Register :=
  { name, access, size := .size16, readLocation := ⟨.absolute, address⟩,
    writeLocation := ⟨.absolute, address⟩, bitFields := [⟨⟨15, 0, by omega⟩, some "code", none⟩],
    enums := [], description := none, slot := none }

def twinModel : Model :=
  ⟨⟨"chip", .version01, none, none, none, none, .size64, none⟩,
    some (.groups [("core", [twinRegister "io_group" .readWrite 0]),
      ("core_io", [twinRegister "mode" .write 1])])⟩

lemma ofTable_twinDocument : Model.ofTable twinDocument = .ok twinModel := rfl

lemma succeeds_generate_twinModel : Succeeds (generate twinModel "chip") := by
  have henums : ∀ r ∈ twinModel.allRegisters, r.enums = [] := by decide
  refine (succeeds_generate_iff "chip").mpr fun g hg n hn => ?_
  rw [succeeds_registerItems_iff_of_ofTable ofTable_twinDocument hg hn,
    henums _ (mem_allRegisters_of_mem_nameGroups hg hn)]
  simp

end Classes

end RegisterMap.Accessor
