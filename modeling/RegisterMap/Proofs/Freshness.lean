import RegisterMap.Proofs.Classes

/-!
# Fresh names

The search for a free name goes through the name that was asked for and its numbered variants, one
by one. As only finitely many names are taken it comes to an end, at the name that the scope hands
out. So the names that a scope hands out are new and differ from each other, and among those for a
model are the names of all constants and classes of its module.
-/

namespace RegisterMap.Accessor

variable {α β γ ε : Type}

/-! ### The search -/

/-- The search for a free name from a candidate on ends at a name. The next candidate is the name
that was asked for with `number` after it. -/
inductive Search (IsTaken : String → Prop) (asked : String) : String → Nat → String → Prop
  | found {candidate : String} {number : Nat} (hfree : ¬IsTaken candidate) :
    Search IsTaken asked candidate number candidate
  | next {candidate : String} {number : Nat} {free : String} (htaken : IsTaken candidate)
    (hrest : Search IsTaken asked (asked ++ toString number) (number + 1) free) :
    Search IsTaken asked candidate number free

section Searches

variable {IsTaken : String → Prop} {asked candidate : String} {number : Nat}

/-- A search from a variant on ends at the first free variant that comes then. -/
lemma search_numbered {n k : Nat} (hbefore : ∀ i < k, IsTaken (numbered asked (n + i)))
    (hfree : ¬IsTaken (numbered asked (n + k))) :
    Search IsTaken asked (numbered asked n) (n + 2) (numbered asked (n + k)) := by
  induction k generalizing n with
  | zero => exact .found hfree
  | succ k ih =>
    have hshift (i : Nat) : n + (i + 1) = n + 1 + i := by omega
    rw [hshift k] at hfree ⊢
    have hrest := ih (fun i hi => hshift i ▸ hbefore (i + 1) (Nat.succ_lt_succ hi)) hfree
    rw [numbered_succ] at hrest
    exact .next (hbefore 0 (Nat.succ_pos k)) hrest

lemma Search.unique {free free' : String} (h : Search IsTaken asked candidate number free)
    (h' : Search IsTaken asked candidate number free') : free = free' := by
  induction h with
  | found hfree =>
    cases h' with
    | found => rfl
    | next htaken => exact absurd htaken hfree
  | next htaken _ ih =>
    cases h' with
    | found hfree => exact absurd htaken hfree
    | next _ hrest => exact ih hrest

/-- A name is handed out for the one that was asked for: the search ends, and nowhere else. That is
the name itself if it is free, and else the name with the smallest number that makes it free. -/
structure HandsOut (IsTaken : String → Prop) (asked name : String) : Prop where
  search_iff : ∀ free, Search IsTaken asked asked 2 free ↔ free = name
  eq_of_free : ¬IsTaken asked → name = asked
  exists_number : IsTaken asked → ∃ k, 2 ≤ k ∧ name = asked ++ toString k ∧ ¬IsTaken name ∧
    ∀ j, 2 ≤ j → j < k → IsTaken (asked ++ toString j)

lemma handsOut_numbered {n : Nat} (hbefore : ∀ k < n, IsTaken (numbered asked k))
    (hfree : ¬IsTaken (numbered asked n)) : HandsOut IsTaken asked (numbered asked n) := by
  have hsearch : Search IsTaken asked asked 2 (numbered asked n) := by
    have h := search_numbered (n := 0) (k := n) (by simpa using hbefore) (by simpa using hfree)
    simpa using h
  refine ⟨fun free => ⟨fun h => h.unique hsearch, fun h => h ▸ hsearch⟩, fun hasked => ?_,
    fun hasked => ?_⟩
  · cases n with
    | zero => rfl
    | succ n => exact absurd (hbefore 0 (Nat.succ_pos n)) hasked
  · cases n with
    | zero => exact absurd hasked hfree
    | succ n =>
      refine ⟨n + 2, Nat.le_add_left 2 n, numbered_succ asked n, hfree, fun j hj hjn => ?_⟩
      obtain ⟨i, rfl⟩ := Nat.exists_eq_add_of_le' hj
      have htaken := hbefore (i + 1) (by omega)
      rwa [numbered_succ] at htaken

lemma HandsOut.congr {IsTaken' : String → Prop} {name : String}
    (h : HandsOut IsTaken asked name) (hiff : ∀ other, IsTaken' other ↔ IsTaken other) :
    HandsOut IsTaken' asked name := by
  obtain rfl : IsTaken' = IsTaken := funext fun other => propext (hiff other)
  exact h

end Searches

/-! ### Names in a row -/

namespace NameScope

lemma exists_handsOut (asked : String) (s : NameScope) :
    ∃ name s', (claim asked).run s = (name, s') ∧ HandsOut (· ∈ s.taken) asked name ∧
      Takes s s' [name] := by
  obtain ⟨n, s', hrun, htakes, hbefore⟩ := exists_claim_eq asked s
  have hfree := htakes.fresh _ (List.mem_singleton_self _)
  exact ⟨_, s', hrun, handsOut_numbered hbefore hfree, htakes⟩

/-- Of names that are asked for in a row, each is handed out beside those before it. -/
lemma exists_claimAll (asked : List String) (s : NameScope) :
    ∃ names s', (claimAll asked).run s = (names, s') ∧ Takes s s' names ∧
      names.length = asked.length ∧
      ∀ i a, asked[i]? = some a → ∃ name, names[i]? = some name ∧
        HandsOut (fun other => other ∈ s.taken ∨ other ∈ names.take i) a name := by
  induction asked generalizing s with
  | nil => exact ⟨[], s, rfl, .nil s, rfl, by simp⟩
  | cons a asked ih =>
    obtain ⟨name, s₁, hclaim, hname, htakes⟩ := exists_handsOut a s
    obtain ⟨names, s₂, hclaims, htakes', hlength, hnames⟩ := ih s₁
    refine ⟨name :: names, s₂, ?_, htakes.append htakes', by simp [hlength], ?_⟩
    · unfold claimAll at hclaims ⊢
      rw [run_mapM_cons, hclaim, hclaims]
    · rintro (_ | i) b hb
      · obtain rfl : a = b := by simpa using hb
        exact ⟨name, rfl, hname.congr (by simp)⟩
      · obtain ⟨name', hname', hout⟩ := hnames i b hb
        refine ⟨name', hname', hout.congr fun other => ?_⟩
        rw [htakes.mem_iff, List.take_succ_cons, List.mem_cons, List.mem_singleton, or_assoc]

end NameScope

/-! ### Names of the items of a module -/

lemma Yields.map {P : α → Prop} {Q : β → Prop} {x : Except ε α} {f : α → β} (hx : Yields P x)
    (hf : ∀ a, P a → Q (f a)) : Yields Q (f <$> x) := by
  cases x with
  | error e => exact .error e
  | ok a => exact .ok (hf a (hx a rfl))

/-- What each result has is part of what its value stands for, and so for all of them. -/
lemma Yields.mapM_subperm {f : α → Except ε β} {p : β → List γ} {q : α → List γ} {as : List α}
    (hf : ∀ a ∈ as, Yields (fun b => (p b).Subperm (q a)) (f a)) :
    Yields (fun bs => (bs.flatMap p).Subperm (as.flatMap q)) (as.mapM f) := by
  induction as with
  | nil => exact .ok (List.Subperm.refl _)
  | cons a as ih =>
    rw [List.mapM_cons]
    refine (hf a List.mem_cons_self).bind fun b hb => ?_
    refine (ih fun a' ha' => hf a' (List.mem_cons_of_mem _ ha')).bind fun bs hbs => .ok ?_
    rw [List.flatMap_cons, List.flatMap_cons]
    exact hb.append hbs

/-- The names that some items define. -/
def definedNames (items : List Item) : List String := items.flatMap Item.names

lemma definedNames_append (items items' : List Item) :
    definedNames (items ++ items') = definedNames items ++ definedNames items' :=
  List.flatMap_append

lemma definedNames_flatten (parts : List (List Item)) :
    definedNames parts.flatten = parts.flatMap definedNames := by
  induction parts with
  | nil => rfl
  | cons items parts ih => rw [List.flatten_cons, definedNames_append, ih, List.flatMap_cons]

lemma definedNames_classes (classes : List Class) :
    definedNames (classes.map .classDef) = classes.map Class.name := by
  rw [definedNames, List.flatMap_map, List.map_eq_flatMap]
  rfl

section Items

variable {n : RegisterNames} {f : FieldNames}

lemma yields_name_closedClass {e : RegisterEnum} :
    Yields (fun c => c.name = f.readClass) (closedClass n f e) := by
  unfold closedClass
  refine .after fun maxValue => ?_
  cases definesAll e maxValue
  · exact .error _
  · exact .after fun _ => .ok rfl

lemma yields_name_openClass : Yields (fun c => c.name = f.readClass) (openClass f) :=
  .after fun _ => .ok rfl

lemma yields_names_readClass? :
    Yields (fun c? => (c?.toList.map Class.name).Subperm [f.readClass]) (readClass? n f) := by
  have hname (c : Class) (hc : c.name = f.readClass) :
      ((some c).toList.map Class.name).Subperm [f.readClass] := by
    simp [hc]
  unfold readClass?
  split
  · split_ifs
    · exact yields_name_closedClass.map hname
    · exact yields_name_openClass.map hname
    · exact .ok List.nil_subperm
  · split_ifs
    · exact yields_name_openClass.map hname
    · exact .ok List.nil_subperm

lemma yields_names_readItems (n : RegisterNames) :
    Yields (fun classes => (classes.map Class.name).Subperm
      (n.fields.map (·.readClass) ++ [n.readClass])) (readItems n) := by
  have hname : Yields (fun c => c.name = n.readClass) (readValue n) :=
    .after fun _ => .after fun _ => .ok rfl
  have hvalue : Yields (fun c? : Option Class => (c?.toList.map Class.name).Subperm [n.readClass])
      (some <$> readValue n) := hname.map fun c hc => by simp [hc]
  unfold readItems
  refine (Yields.mapM_subperm fun f _ => yields_names_readClass?).bind fun fields hfields => ?_
  have hnames : fields.reduceOption.map Class.name =
      fields.flatMap fun c? => c?.toList.map Class.name := by
    rw [List.reduceOption, List.filterMap_eq_flatMap_toList, List.map_flatMap]
    rfl
  rw [← hnames, ← List.map_eq_flatMap] at hfields
  dsimp only
  split_ifs
  · refine hvalue.bind fun value hvalue => .ok ?_
    rw [List.map_append]
    exact hfields.append hvalue
  · refine .ok ?_
    rw [List.map_append]
    exact hfields.append List.nil_subperm

lemma yields_names_writeItems (n : RegisterNames) :
    Yields (fun classes => (classes.map Class.name).Subperm
      (n.fields.map (·.writeClass) ++ [n.writeClass])) (writeItems n) := by
  have hproxies : Yields (fun classes => classes.map Class.name = n.fields.map (·.writeClass))
      (n.fields.mapM (writeProxy n)) :=
    Yields.mapM_map (fun f => (.after fun _ => .after fun _ => .ok rfl :
      Yields (fun c => c.name = f.writeClass) (writeProxy n f))) n.fields
  have hvalue : Yields (fun c => c.name = n.writeClass) (writeValue n) :=
    .after fun _ => .after fun _ => .ok rfl
  unfold writeItems
  split_ifs
  · refine hproxies.bind fun proxies hproxies => hvalue.bind fun value hvalue => .ok ?_
    rw [List.map_append, hproxies, List.map_singleton, hvalue]
  · exact .ok List.nil_subperm

lemma definedNames_rangeItems (n : RegisterNames) :
    definedNames (rangeItems n) = n.fields.map (·.constant) := by
  unfold rangeItems
  split_ifs with hempty
  · rw [List.isEmpty_iff.mp hempty]
    rfl
  · rw [definedNames, List.flatMap_singleton, Item.names, List.map_map]
    rfl

/-- The names of bit fields, kind by kind. -/
lemma flatMap_claimed_perm (fields : List FieldNames) :
    (fields.flatMap FieldNames.claimed).Perm
      (fields.map (·.constant) ++ (fields.map (·.readClass) ++ fields.map (·.writeClass))) := by
  induction fields with
  | nil => exact .nil
  | cons f fields ih =>
    rw [List.perm_iff_count] at ih ⊢
    intro name
    have hcount := ih name
    simp only [List.flatMap_cons, List.map_cons, FieldNames.claimed, List.count_append,
      List.count_cons, List.count_nil] at hcount ⊢
    omega

/-- The items of a register define names that were claimed for it, each at most once. -/
lemma yields_definedNames_registerItems (n : RegisterNames) :
    Yields (fun items => (definedNames items).Subperm n.claimed) (registerItems n) := by
  have hio : Yields (fun c => c.name = n.ioClass) (ioProtocol n) := .after fun _ => .ok rfl
  have haccessor : Yields (fun c => c.name = n.accessor) (accessorClass n) :=
    .after fun _ => .after fun _ => .after fun _ => .ok rfl
  unfold registerItems
  refine (yields_names_readItems n).bind fun reading hreading =>
    (yields_names_writeItems n).bind fun writing hwriting =>
    hio.bind fun io hio => haccessor.bind fun accessor haccessor => .ok ?_
  rw [definedNames_append, definedNames_rangeItems, definedNames_classes]
  rw [List.subperm_ext_iff]
  intro name _
  have hread := hreading.count_le name
  have hwrite := hwriting.count_le name
  have hfields := (flatMap_claimed_perm n.fields).count_eq name
  simp only [RegisterNames.claimed, List.map_append, List.map_cons, List.map_nil, hio, haccessor,
    List.count_append, List.count_cons, List.count_nil] at hread hwrite hfields ⊢
  omega

/-- The items of a group define names that were claimed for it, each at most once. -/
lemma yields_definedNames_groupItems (g : GroupNames) :
    Yields (fun items => (definedNames items).Subperm g.claimed) (groupItems g) := by
  have hmarker : Yields (fun c => c.name = g.marker) (markerClass g) := .after fun _ => .ok rfl
  have hcontainer : Yields (fun c => c.name = g.container) (containerClass g) :=
    .after fun _ => .after fun _ => .ok rfl
  unfold groupItems
  refine hmarker.bind fun marker hmarker =>
    (Yields.mapM_subperm fun n _ => yields_definedNames_registerItems n).bind fun parts hparts =>
    hcontainer.bind fun container hcontainer => .ok ?_
  rw [List.subperm_ext_iff]
  intro name _
  have hcount := hparts.count_le name
  simp only [definedNames_append, definedNames_flatten, GroupNames.claimed, List.count_append]
  simp only [definedNames, List.flatMap_singleton, Item.names, hmarker, hcontainer, List.count_cons,
    List.count_nil]
  omega

lemma yields_definedNames_modelItems (m : Model) :
    Yields (fun items => (definedNames items).Subperm ((nameGroups m).flatMap GroupNames.claimed))
      (modelItems m) := by
  unfold modelItems
  refine (Yields.mapM_subperm fun g _ => yields_definedNames_groupItems g).bind fun parts hparts =>
    .ok ?_
  rwa [definedNames_flatten]

end Items

/-! ### Freshness -/

/-- Every name that a scope hands out is fresh. However many names are asked for in a row, each
search ends; its result is neither reserved nor handed out before, and it is the name that was asked
for if this is free, and else that name with the smallest number that makes it free. So the names
for a model differ from each other and from those of the preamble, and the constants and classes of
its module have such names, each of its own. -/
theorem claimed_fresh :
    (∀ reserved asked : List String,
      let names := ((NameScope.claimAll asked).run (.ofList reserved)).1
      names.length = asked.length ∧ names.Nodup ∧ (∀ name ∈ names, name ∉ reserved) ∧
      ∀ i a, asked[i]? = some a → ∃ name, names[i]? = some name ∧
        HandsOut (fun other => other ∈ reserved ∨ other ∈ names.take i) a name) ∧
    ∀ m : Model,
      ((nameGroups m).flatMap GroupNames.claimed).Nodup ∧
      (∀ g ∈ nameGroups m, ∀ name ∈ g.claimed, name ∉ Preamble.names) ∧
      ∀ moduleName, Yields (fun text => ∃ head items, modelItems m = .ok items ∧
        text = Code.text (head ++ Preamble.code ++ items.flatMap Item.code) ∧
        (definedNames items).Subperm ((nameGroups m).flatMap GroupNames.claimed))
        (generate m moduleName) := by
  refine ⟨fun reserved asked => ?_, fun m => ⟨?_, ?_, ?_⟩⟩
  · obtain ⟨names, s, hrun, htakes, hlength, hnames⟩ :=
      NameScope.exists_claimAll asked (.ofList reserved)
    simp only [NameScope.mem_taken_ofList] at hnames
    rw [hrun]
    refine ⟨hlength, htakes.nodup, fun name hname => ?_, hnames⟩
    exact mt NameScope.mem_taken_ofList.mpr (htakes.fresh name hname)
  · obtain ⟨s, htakes, _⟩ := takes_nameGroups m
    exact htakes.nodup
  · intro g hg name hname
    exact not_mem_preamble_of_mem_claimed hg hname
  · intro moduleName
    have hitems : Yields (fun items => modelItems m = .ok items ∧
        (definedNames items).Subperm ((nameGroups m).flatMap GroupNames.claimed)) (modelItems m) :=
      fun items h => ⟨h, yields_definedNames_modelItems m items h⟩
    unfold generate
    exact .after fun head => hitems.bind fun items h => .ok ⟨head, items, h.1, rfl, h.2⟩

end RegisterMap.Accessor
