import RegisterMap.Proofs.Classes
import RegisterMap.Proofs.PrivateNames

/-!
# Names that class bodies refer to

What a module is generated with refers to the names that are listed for a group: every one of them
stands in the body of some class, as a word of its own.
-/

namespace RegisterMap.Accessor

/-! ### Mentions -/

/-- A line has a name in it, and no character that could continue the name before or after it. -/
def StandsIn (name line : String) : Prop :=
  ∃ before after : List Char, line.toList = before ++ name.toList ++ after ∧
    before.getLast?.any Name.isFollowing = false ∧ after.head?.any Name.isFollowing = false

/-- A name stands in a line of a class body. -/
def Class.Mentions (c : Class) (name : String) : Prop :=
  ∃ m ∈ c.members, ∃ line ∈ m.code, StandsIn name line

/-- A name stands in the body of a class among some items. -/
def Mentioned (name : String) (items : List Item) : Prop :=
  ∃ c, .classDef c ∈ items ∧ c.Mentions name

lemma Mentioned.mono {name : String} {items items' : List Item} (h : Mentioned name items)
    (hsub : items ⊆ items') : Mentioned name items' := by
  obtain ⟨c, hc, hmentions⟩ := h
  exact ⟨c, hsub hc, hmentions⟩

/-- What some classes mention is mentioned among all items of which they are. -/
lemma mentioned_of_exists {name : String} {classes : List Class} {items : List Item}
    (h : ∃ c ∈ classes, c.Mentions name) (hsub : ∀ c ∈ classes, .classDef c ∈ items) :
    Mentioned name items := by
  obtain ⟨c, hc, hmentions⟩ := h
  exact ⟨c, hsub c hc, hmentions⟩

section Lines

variable {name line : String} {c : Class} {m : Method}

lemma StandsIn.indentLine (h : StandsIn name line) : StandsIn name (Code.indentLine line) := by
  obtain ⟨before, after, hline, hbefore, hafter⟩ := h
  unfold Code.indentLine
  split_ifs with hempty
  · have hline' : line = "" := by simpa using hempty
    exact ⟨before, after, hline' ▸ hline, hbefore, hafter⟩
  · refine ⟨Code.indentation.toList ++ before, after, ?_, ?_, hafter⟩
    · rw [String.toList_append, hline]
      simp only [List.append_assoc]
    · rw [List.getLast?_append]
      cases hlast : before.getLast? with
      | none => rfl
      | some c => rwa [hlast] at hbefore

/-- A class mentions what stands in the body of one of its methods. -/
lemma Class.mentions_of_body {first : List (List Member)} {methods : List Method}
    (hsections : c.sections = first ++ sectionsOf methods) (hm : m ∈ methods)
    (hline : line ∈ m.body) (h : StandsIn name line) : c.Mentions name := by
  refine ⟨.method m, ?_, Code.indentLine line, ?_, h.indentLine⟩
  · rw [members, hsections]
    simp [sectionsOf, hm]
  · refine List.mem_append_right _ (List.mem_cons_of_mem _ (List.mem_map_of_mem ?_))
    exact List.mem_append_right _ hline

/-- A class mentions what stands in the header of one of its methods. -/
lemma Class.mentions_of_header {first : List (List Member)} {methods : List Method}
    (hsections : c.sections = first ++ sectionsOf methods) (hm : m ∈ methods)
    (h : StandsIn name m.header) : c.Mentions name := by
  refine ⟨.method m, ?_, m.header, ?_, h⟩
  · rw [members, hsections]
    simp [sectionsOf, hm]
  · exact List.mem_append_right _ List.mem_cons_self

lemma Method.result_standsIn_header (m : Method) : StandsIn m.result m.header := by
  let parameters := String.intercalate ", " m.parameters
  refine ⟨s!"def {m.name}({parameters}) ->".toList ++ [' '], [':'], ?_, ?_, rfl⟩
  · simp [header, toString, parameters]
  · rw [List.getLast?_concat]
    rfl

end Lines

/-- A result that is wrapped is there. -/
lemma Yields.exists_mem {α ε : Type} {P : α → Prop} {x : Except ε α} (hx : Yields P x) :
    Yields (fun a? => ∃ a ∈ a?, P a) (Option.some <$> x) := by
  cases x with
  | error e => exact error e
  | ok a => exact ok ⟨a, rfl, hx a rfl⟩

/-! ### Classes of bit fields -/

section Fields

variable {n : RegisterNames} {f : FieldNames}

lemma yields_closedClass_mentions (e : RegisterEnum) :
    Yields (·.Mentions f.readClass) (closedClass n f e) := by
  unfold closedClass
  refine .after fun maxValue => ?_
  cases hall : definesAll e maxValue
  · exact .error _
  refine .after fun doc => .ok ?_
  exact Class.mentions_of_header rfl (m := fromRaw f.readClass "cls(value)") (by simp)
    (Method.result_standsIn_header _)

lemma yields_openClass_mentions : Yields (·.Mentions f.readClass) (openClass f) := by
  unfold openClass
  refine .after fun doc => .ok ?_
  exact Class.mentions_of_header rfl
    (m := fromRaw f.readClass (if f.isSingle then "cls(value != 0)" else "cls(value)")) (by simp)
    (Method.result_standsIn_header _)

/-- A bit field that has a read class is mentioned in this class. -/
lemma yields_readClass?_mentions (h : f.isClosed = true ∨ n.register.isReadable = true) :
    Yields (fun c? => ∃ c ∈ c?, c.Mentions f.readClass) (readClass? n f) := by
  unfold readClass?
  split
  next e he =>
    split_ifs with hcomplete hread
    · exact (yields_closedClass_mentions e).exists_mem
    · exact yields_openClass_mentions.exists_mem
    · simp [FieldNames.isClosed, he, hcomplete, hread] at h
  next he =>
    split_ifs with hread
    · exact yields_openClass_mentions.exists_mem
    · simp [FieldNames.isClosed, he, hread] at h

lemma yields_writeProxy_mentions : Yields (·.Mentions f.constant) (writeProxy n f) := by
  unfold writeProxy
  refine .after fun doc => .after fun setters => .ok ?_
  refine Class.mentions_of_body rfl (m := .simple "bits" ["value: int"] n.writeClass
    [s!"return self._w.set_raw_bits({f.constant}.set(self._w.raw_bits(), value))"])
    (by simp) List.mem_cons_self ?_
  exact ⟨"return self._w.set_raw_bits(".toList, ".set(self._w.raw_bits(), value))".toList,
    by simp [toString], rfl, rfl⟩

end Fields

/-! ### Classes of registers -/

section Registers

variable {n : RegisterNames} {g : GroupNames}

lemma yields_fieldMethods_body (result body : FieldNames → String) :
    Yields (fun ms => ∀ f ∈ n.fields, ∃ m ∈ ms, s!"return {body f}" ∈ m.body)
      (fieldMethods n result body) := by
  unfold fieldMethods
  exact .mapM_mem fun f _ => .after fun _ => .ok List.mem_cons_self

lemma yields_readValue_mentions :
    Yields (fun c => ∀ f ∈ n.fields, c.Mentions f.constant) (readValue n) := by
  unfold readValue
  refine .after fun doc => (yields_fieldMethods_body _ _).bind fun fields hfields =>
    .ok fun f hf => ?_
  obtain ⟨m, hm, hbody⟩ := hfields f hf
  refine Class.mentions_of_body rfl (by simp [hm]) hbody ?_
  refine ⟨s!"return {f.readClass}.from_raw".toList ++ ['('], ".get(self._raw))".toList, ?_, ?_, rfl⟩
  · simp [toString]
  · rw [List.getLast?_concat]
    rfl

lemma yields_writeValue_mentions :
    Yields (fun c => ∀ f ∈ n.fields, c.Mentions f.writeClass) (writeValue n) := by
  unfold writeValue
  refine .after fun doc => (yields_fieldMethods_body _ _).bind fun fields hfields =>
    .ok fun f hf => ?_
  obtain ⟨m, hm, hbody⟩ := hfields f hf
  refine Class.mentions_of_body rfl (by simp [hm]) hbody ?_
  exact ⟨"return ".toList, "(self)".toList, by simp [toString], rfl, rfl⟩

lemma yields_writing_body (name summary start : String) :
    Yields (fun m => s!"value = {n.writeClass}({start})" ∈ m.body)
      (writing n name summary start) :=
  .after fun _ => .ok List.mem_cons_self

lemma yields_accessorClass_mentions :
    Yields (fun c => c.Mentions n.ioClass ∧
      (n.register.isReadable = true → c.Mentions n.readClass) ∧
      (n.hasWriteValue = true → c.Mentions n.writeClass)) (accessorClass n) := by
  have hvalue (start : String) : StandsIn n.writeClass s!"value = {n.writeClass}({start})" :=
    ⟨"value = ".toList, '(' :: s!"{start})".toList, by simp [toString], rfl, rfl⟩
  unfold accessorClass
  refine .after fun doc => (yields_writing_body _ _ _).bind fun write hwrite =>
    (yields_writing_body _ _ _).bind fun modify hmodify => .ok ⟨?_, ?_, ?_⟩
  · refine Class.mentions_of_header rfl (m := .simple "__init__" [s!"io: {n.ioClass}"] "None"
      ["require_capabilities(io, self.NAME, self.CAPABILITIES)", "self._io = io"]) (by simp) ?_
    exact ⟨"def __init__(self, io: ".toList, ") -> None:".toList,
      by simp [Method.header, Method.simple, toString], rfl, rfl⟩
  · intro hread
    refine Class.mentions_of_body rfl (m := .simple "read" [] n.readClass
      [s!"return {n.readClass}(self._read_raw())"]) (by simp [hread]) List.mem_cons_self ?_
    exact ⟨"return ".toList, "(self._read_raw())".toList, by simp [toString], rfl, rfl⟩
  · intro hwriteValue
    rcases Bool.or_eq_true _ _ |>.mp hwriteValue with h | h
    · exact Class.mentions_of_body rfl (m := write) (by simp [h]) hwrite (hvalue _)
    · exact Class.mentions_of_body rfl (m := modify) (by simp [h]) hmodify (hvalue _)

lemma yields_readItems_mentions :
    Yields (fun classes =>
      (∀ f ∈ n.fields, f.isClosed = true ∨ n.register.isReadable = true →
        ∃ c ∈ classes, c.Mentions f.readClass) ∧
      (n.register.isReadable = true → ∀ f ∈ n.fields, ∃ c ∈ classes, c.Mentions f.constant))
      (readItems n) := by
  have hfields : Yields (fun fields : List (Option Class) => ∀ f ∈ n.fields, ∃ c? ∈ fields,
      f.isClosed = true ∨ n.register.isReadable = true → ∃ c ∈ c?, c.Mentions f.readClass)
      (n.fields.mapM (readClass? n)) :=
    .mapM_mem fun f _ c? hc? h => yields_readClass?_mentions h c? hc?
  unfold readItems
  refine hfields.bind fun fields hfields => ?_
  have hreads (value : Option Class) : ∀ f ∈ n.fields,
      f.isClosed = true ∨ n.register.isReadable = true →
        ∃ c ∈ fields.reduceOption ++ value.toList, c.Mentions f.readClass := by
    intro f hf h
    obtain ⟨c?, hc?, hmentions⟩ := hfields f hf
    obtain ⟨c, rfl, hc⟩ := hmentions h
    exact ⟨c, List.mem_append_left _ (List.reduceOption_mem_iff.mpr hc?), hc⟩
  dsimp only
  split_ifs with hread
  · refine yields_readValue_mentions.exists_mem.bind fun value ⟨c, hc, hconstants⟩ =>
      .ok ⟨hreads value, fun _ f hf => ⟨c, ?_, hconstants f hf⟩⟩
    exact List.mem_append_right _ (Option.mem_toList.mpr hc)
  · exact .ok ⟨hreads none, fun h => absurd h hread⟩

lemma yields_writeItems_mentions :
    Yields (fun classes => n.hasWriteValue = true →
      (∀ f ∈ n.fields, ∃ c ∈ classes, c.Mentions f.constant) ∧
      ∀ f ∈ n.fields, ∃ c ∈ classes, c.Mentions f.writeClass) (writeItems n) := by
  unfold writeItems
  split_ifs with h
  · refine (Yields.mapM_mem fun f _ => yields_writeProxy_mentions).bind fun proxies hproxies =>
      yields_writeValue_mentions.bind fun value hvalue => .ok fun _ => ⟨?_, ?_⟩
    · intro f hf
      obtain ⟨c, hc, hmentions⟩ := hproxies f hf
      exact ⟨c, List.mem_append_left _ hc, hmentions⟩
    · intro f hf
      exact ⟨value, List.mem_append_right _ (List.mem_singleton_self _), hvalue f hf⟩
  · exact .ok fun h' => absurd h' h

/-! ### All items -/

/-- The names of a register but that of its accessor stand in the bodies of classes among some
items. -/
def RegisterNames.MentionedAmong (n : RegisterNames) (items : List Item) : Prop :=
  ∀ name ∈ n.referenced, name = n.accessor ∨ Mentioned name items

lemma RegisterNames.MentionedAmong.mono {items items' : List Item} (h : n.MentionedAmong items)
    (hsub : items ⊆ items') : n.MentionedAmong items' :=
  fun name hname => (h name hname).imp_right (·.mono hsub)

lemma yields_registerItems_mentions : Yields n.MentionedAmong (registerItems n) := by
  unfold registerItems
  refine yields_readItems_mentions.bind fun reading ⟨hreadClass, hreadConstant⟩ =>
    yields_writeItems_mentions.bind fun writing hwriting => .after fun io =>
    yields_accessorClass_mentions.bind fun accessor ⟨hio, hread, hwrite⟩ => .ok ?_
  let items : List Item := rangeItems n ++ (reading ++ writing ++ [io, accessor]).map .classDef
  have hclass {name : String} (h : accessor.Mentions name) : Mentioned name items :=
    ⟨accessor, by simp [items], h⟩
  have hreading {name : String} (h : ∃ c ∈ reading, c.Mentions name) : Mentioned name items :=
    mentioned_of_exists h fun c hc => by simp [items, hc]
  have hwritten {name : String} (h : ∃ c ∈ writing, c.Mentions name) : Mentioned name items :=
    mentioned_of_exists h fun c hc => by simp [items, hc]
  have hfields : ∀ f ∈ n.fields, ∀ name ∈ f.referenced n, Mentioned name items := by
    intro f hf
    refine forall_mem_referenced_iff.mpr ⟨?_, ?_, ?_⟩
    · rintro (h | h)
      · exact hreading (hreadConstant h f hf)
      · exact hwritten ((hwriting h).1 f hf)
    · exact fun h => hreading (hreadClass f hf h)
    · exact fun h => hwritten ((hwriting h).2 f hf)
  intro name hname
  simp only [RegisterNames.referenced, List.mem_append, List.mem_cons, List.not_mem_nil, or_false,
    List.mem_flatMap, List.mem_ite_nil_right] at hname
  rcases hname with (((rfl | rfl) | ⟨h, rfl⟩) | ⟨h, rfl⟩) | ⟨f, hf, hname⟩
  · exact .inl rfl
  · exact .inr (hclass hio)
  · exact .inr (hclass (hread h))
  · exact .inr (hclass (hwrite h))
  · exact .inr (hfields f hf name hname)

lemma yields_containerClass_mentions :
    Yields (fun c => c.Mentions g.marker ∧ ∀ n ∈ g.registers, c.Mentions n.accessor)
      (containerClass g) := by
  unfold containerClass
  refine .after fun doc => .after fun showing => .ok ⟨?_, fun n hn => ?_⟩
  · refine ⟨.constant (.plain "GROUP" g.marker), ?_, s!"GROUP = {g.marker}", ?_,
      "GROUP = ".toList, [], by simp [toString], rfl, rfl⟩
    · exact List.mem_flatten_of_mem List.mem_cons_self List.mem_cons_self
    · simp [Member.code, Constant.code, Constant.plain, toString]
  · refine Class.mentions_of_body rfl (m := .simple (getterName n) [] n.accessor
      [s!"return {n.accessor}(self._io)"]) ?_ List.mem_cons_self ?_
    · exact List.mem_append_left _ (List.mem_append_right _ (List.mem_map_of_mem hn))
    · exact ⟨"return ".toList, "(self._io)".toList, by simp [toString], rfl, rfl⟩

lemma yields_groupItems_mentions :
    Yields (fun items => ∀ name ∈ g.referenced, Mentioned name items) (groupItems g) := by
  have hparts := yields_groupItems_of_registerItems (P := RegisterNames.MentionedAmong) (g := g)
    RegisterNames.MentionedAmong.mono (fun n => yields_registerItems_mentions)
    yields_containerClass_mentions
  refine hparts.imp ?_
  rintro items ⟨⟨container, hc, hmarker, haccessors⟩, hregisters⟩
  rw [GroupNames.referenced, List.forall_mem_cons, List.forall_mem_flatMap]
  refine ⟨⟨container, hc, hmarker⟩, fun n hn name hname => ?_⟩
  rcases hregisters n hn name hname with rfl | hmentioned
  · exact ⟨container, hc, haccessors n hn⟩
  · exact hmentioned

end Registers

/-- Each name that is listed for a group of a model stands in the body of a class of the module. -/
lemma yields_modelItems_mentions (m : Model) :
    Yields (fun items => ∀ g ∈ nameGroups m, ∀ name ∈ g.referenced, Mentioned name items)
      (modelItems m) :=
  yields_modelItems_of_groupItems (P := fun g items => ∀ name ∈ g.referenced, Mentioned name items)
    (fun h hsub name hname => (h name hname).mono hsub) (fun _ => yields_groupItems_mentions) m

end RegisterMap.Accessor
