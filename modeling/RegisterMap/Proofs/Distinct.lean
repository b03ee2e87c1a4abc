import Mathlib.Data.List.FinRange
import Mathlib.Tactic.Lemma
import RegisterMap.Check.Distinct

/-!
# Pairwise properties

Items that are seen in turn, each beside the earlier ones, are without problems exactly when each
item is sound by itself and every pair of items is in order. Items without clashes are those whose
properties are all different.
-/

namespace RegisterMap

variable {α β γ : Type}

/-! ### Items in turn -/

/-- If nothing comes of an item that is sound by itself and in order with the items before it, then
nothing comes of a list whose items are sound and in order pair by pair. -/
lemma inTurn_eq_nil_iff {f : List α → α → List β} {Sound : α → Prop} {InOrder : α → α → Prop}
    (hf : ∀ earlier a, f earlier a = [] ↔ Sound a ∧ ∀ e ∈ earlier, InOrder e a)
    (earlier items : List α) :
    inTurn f earlier items = [] ↔
      (∀ a ∈ items, Sound a ∧ ∀ e ∈ earlier, InOrder e a) ∧ items.Pairwise InOrder := by
  induction items generalizing earlier with
  | nil => simp [inTurn]
  | cons a rest ih =>
    rw [inTurn, List.append_eq_nil_iff, hf, ih, List.pairwise_cons]
    constructor
    · rintro ⟨ha, hrest, hpairs⟩
      refine ⟨?_, fun b hb => (hrest b hb).2 a (by simp), hpairs⟩
      intro b hb
      rcases List.mem_cons.mp hb with rfl | hb
      · exact ha
      · exact ⟨(hrest b hb).1, fun e he => (hrest b hb).2 e (by simp [he])⟩
    · rintro ⟨hall, hfirst, hpairs⟩
      refine ⟨hall a (by simp), fun b hb => ⟨(hall b (by simp [hb])).1, ?_⟩, hpairs⟩
      intro e he
      rcases List.mem_append.mp he with he | he
      · exact (hall b (by simp [hb])).2 e he
      · rw [List.mem_singleton.mp he]
        exact hfirst b hb

lemma mem_inTurn_iff {f : List α → α → List β} {b : β} {earlier items : List α} :
    b ∈ inTurn f earlier items ↔
      ∃ before a after, items = before ++ a :: after ∧ b ∈ f (earlier ++ before) a := by
  induction items generalizing earlier with
  | nil => simp [inTurn]
  | cons c rest ih =>
    rw [inTurn, List.mem_append, ih]
    constructor
    · rintro (hb | ⟨before, a, after, rfl, hb⟩)
      · exact ⟨[], c, rest, rfl, by simpa using hb⟩
      · exact ⟨c :: before, a, after, rfl, by simpa using hb⟩
    · rintro ⟨before, a, after, heq, hb⟩
      cases before with
      | nil =>
        obtain ⟨rfl, rfl⟩ := List.cons_eq_cons.mp heq
        exact .inl (by simpa using hb)
      | cons d before =>
        obtain ⟨rfl, rfl⟩ := List.cons_eq_cons.mp heq
        exact .inr ⟨before, a, after, rfl, by simpa using hb⟩

lemma map_inTurn (f : List α → α → List β) (g : β → γ) (earlier items : List α) :
    (inTurn f earlier items).map g = inTurn (fun earlier a => (f earlier a).map g) earlier items := by
  induction items generalizing earlier with
  | nil => rfl
  | cons a rest ih => simp [inTurn, ih]

lemma flatMap_inTurn (f : List α → α → List β) (g : β → List γ) (earlier items : List α) :
    (inTurn f earlier items).flatMap g =
      inTurn (fun earlier a => (f earlier a).flatMap g) earlier items := by
  induction items generalizing earlier with
  | nil => rfl
  | cons a rest ih => simp [inTurn, ih]

/-- Each item comes beside the items that are taken before it. -/
lemma inTurn_map_eq_flatMap (f : List β → β → List γ) (g : α → β)
    (earlier : List β) (items : List α) :
    inTurn f earlier (items.map g) =
      (List.finRange items.length).flatMap fun j : Fin items.length =>
        f (earlier ++ (items.map g).take j) (g (items.get j)) := by
  induction items generalizing earlier with
  | nil => rfl
  | cons a rest ih => simp [inTurn, ih, List.finRange_succ, List.flatMap_map]

lemma inTurn_eq_flatMap (f : List α → α → List β) (items : List α) :
    inTurn f [] items = (List.finRange items.length).flatMap fun j : Fin items.length =>
      f (items.take j) (items.get j) := by
  simpa using inTurn_map_eq_flatMap f id [] items

/-! ### Items once -/

lemma nodup_eraseDups [BEq α] [LawfulBEq α] (items : List α) : items.eraseDups.Nodup := by
  match items with
  | [] => simp
  | a :: rest =>
    rw [List.eraseDups_cons, List.nodup_cons, List.mem_eraseDups, List.mem_filter]
    exact ⟨by simp, nodup_eraseDups _⟩
termination_by items.length
decreasing_by
  have := List.length_filter_le (fun other => !other == a) rest
  rw [List.length_cons]
  omega

/-! ### Clashes -/

lemma rival?_eq_none_iff [BEq β] [LawfulBEq β] {property : α → β} {earlier : List α} {a : α} :
    rival? property earlier a = none ↔ ∀ e ∈ earlier, property e ≠ property a := by
  simp [rival?]

lemma clashes_eq_nil_iff [BEq β] [LawfulBEq β] {property : α → β} {items : List α} :
    clashes property items = [] ↔ items.Pairwise fun a b => property a ≠ property b := by
  have hrival (earlier : List (β × α)) (a : β × α) :
      ((rival? Prod.fst earlier a).toList.map fun other => (other.2, a.2)) = [] ↔
        True ∧ ∀ e ∈ earlier, e.1 ≠ a.1 := by
    simp [rival?_eq_none_iff]
  rw [clashes, inTurn_eq_nil_iff hrival]
  simp [keyed, List.pairwise_map]

end RegisterMap
