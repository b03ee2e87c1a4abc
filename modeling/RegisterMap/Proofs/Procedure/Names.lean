import RegisterMap.Procedure.Fit
import RegisterMap.Proofs.Distinct
import RegisterMap.Proofs.Procedure.Reading

/-!
# Dictionaries of first holders

A dictionary into which the names of items are entered one after another has, under every key, the
first item with this key. So entering an item tells whether an earlier one has the same key, and a
loop that enters items records what comes of them in turn.
-/

namespace RegisterMap.Procedure

variable {α κ : Type} [BEq κ] [LawfulBEq κ]

/-! ### Entering names -/

/-- A dictionary with the names of the first of the earlier items under each key. -/
def HoldsFirst (key : α → κ) (name : α → String) (earlier : List α) (seen : Dictionary κ) : Prop :=
  ∀ k, seen.lookup k = (earlier.find? fun a => key a == k).map name

variable {key : α → κ} {name : α → String} {earlier : List α} {seen : Dictionary κ} {a : α}

omit [LawfulBEq κ] in
lemma holdsFirst_nil : HoldsFirst key name [] [] := fun _ => rfl

omit [LawfulBEq κ] in
lemma HoldsFirst.lookup_eq (h : HoldsFirst key name earlier seen) :
    seen.lookup (key a) = (rival? key earlier a).map name := h (key a)

/-- An item that has an earlier rival leaves the dictionary as it is. -/
lemma HoldsFirst.append_of_rival (h : HoldsFirst key name earlier seen)
    (hrival : rival? key earlier a ≠ none) : HoldsFirst key name (earlier ++ [a]) seen := by
  intro k
  rw [h k, List.find?_append]
  by_cases hk : key a = k
  · subst hk
    obtain ⟨other, hother⟩ := Option.ne_none_iff_exists'.mp hrival
    unfold rival? at hother
    rw [hother, Option.some_or]
  · simp [hk]

/-- An item without a rival is entered. -/
lemma HoldsFirst.append_of_none (h : HoldsFirst key name earlier seen)
    (hrival : rival? key earlier a = none) :
    HoldsFirst key name (earlier ++ [a]) ((key a, name a) :: seen) := by
  intro k
  rw [List.find?_append, List.lookup_cons]
  by_cases hk : key a = k
  · subst hk
    unfold rival? at hrival
    simp [hrival]
  · have hne : (k == key a) = false := beq_false_of_ne fun h => hk h.symm
    rw [hne, h k]
    simp [hk]

/-- Entering an item records the clash with its rival, if it has one. -/
lemma run_enter (h : HoldsFirst key name earlier seen) (a : α) (table : TableKind)
    (message : String → String) :
    ∃ seen', (∀ c, (enter table (key a) (name a) message seen).run c =
        .ok seen' (c.record ((rival? key earlier a).toList.map fun other =>
          .constraint table c.path (message (name other))))) ∧
      HoldsFirst key name (earlier ++ [a]) seen' := by
  rw [enter, h.lookup_eq]
  cases hrival : rival? key earlier a with
  | none => exact ⟨_, fun c => by simp, h.append_of_none hrival⟩
  | some other =>
    refine ⟨seen, fun _ => rfl, h.append_of_rival ?_⟩
    rw [hrival]
    exact Option.some_ne_none other

/-! ### Names in snake case -/

/-- The check of names records the clashes of each name with the names before it. -/
lemma run_checkNames {β : Type} {nameOf : β → Procedure Context String} {names : β → String}
    (message : String → String → String) {items : List β}
    (hnames : ∀ b ∈ items, ∀ c, (nameOf b).run c = .ok (names b) c)
    {earlier : List (String × String)} {seen : Dictionary String}
    (h : HoldsFirst Prod.fst Prod.snd earlier seen) (c : Context) :
    (checkNames nameOf message items seen).run c =
      .ok () (c.record (inTurn (fun earlier a => (rival? Prod.fst earlier a).toList.map fun other =>
        .constraint .register c.path (message other.2 a.2)) earlier
          (keyed Name.snake (items.map names)))) := by
  induction items generalizing earlier seen c with
  | nil => simp [checkNames, keyed, inTurn]
  | cons b rest ih =>
    obtain ⟨seen', hrun, hseen'⟩ := run_enter h (Name.snake (names b), names b) .register
      (message · (names b))
    have hrest := ih (fun b' hb' => hnames b' (List.mem_cons_of_mem _ hb')) hseen'
    simp only [checkNames, EStateM.run_bind, hnames b List.mem_cons_self, hrun, hrest]
    simp [keyed, inTurn]

/-- The diagnostics of clashes, as they come in turn. -/
private lemma map_clashes {β : Type} (names : List String) (g : String × String → β) :
    (clashes Name.snake names).map g = inTurn (fun earlier a =>
      (rival? Prod.fst earlier a).toList.map fun other => g (other.2, a.2)) []
        (keyed Name.snake names) := by
  rw [clashes, map_inTurn]
  simp only [List.map_map, Function.comp_def]

lemma run_checkRegisterNames (registers : List Register) (c : Context) :
    (checkRegisterNames registers).run c =
      .ok () (c.record (Register.nameProblems c.path registers)) := by
  rw [checkRegisterNames, Register.nameProblems, map_clashes]
  exact run_checkNames _ (fun _ _ _ => rfl) holdsFirst_nil c

/-- No name is missing among the bit fields that are not reserved. -/
lemma run_checkFieldNames (r : Register) (c : Context) :
    (checkFieldNames (r.bitFields.filter (!·.isReserved))).run c =
      .ok () (c.record (r.fieldNameProblems c.path)) := by
  have hnamed : ∀ f ∈ r.bitFields.filter (!·.isReserved), f.name = some (f.name.getD "") := by
    intro f hf
    obtain ⟨_, hf⟩ := List.mem_filter.mp hf
    cases hname : f.name <;> simp_all [BitField.isReserved]
  have hnames : r.namedFields.map (·.1) =
      (r.bitFields.filter (!·.isReserved)).map fun f => f.name.getD "" := by
    unfold Register.namedFields
    induction r.bitFields with
    | nil => rfl
    | cons f rest ih =>
      simp only [BitField.isReserved, Option.not_isNone] at ih ⊢
      cases hname : f.name <;> simp [hname, ih]
  rw [checkFieldNames, Register.fieldNameProblems, map_clashes, hnames]
  refine run_checkNames _ (fun f hf c => ?_) holdsFirst_nil c
  rw [hnamed f hf]
  rfl

end RegisterMap.Procedure
