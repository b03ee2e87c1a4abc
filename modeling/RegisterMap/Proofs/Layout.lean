import Mathlib.Data.List.TakeWhile
import Mathlib.Tactic.Lemma
import RegisterMap.Accessor.Class

/-!
# The layout of classes

A member of a class stands below the header of the class, one level deeper, and only lines at this
level and empty lines are between. This is also how it stands among the lines of the whole module.
-/

namespace RegisterMap.Accessor

variable {name : String} {body lines : Code}

/-! ### Lines -/

namespace Code

lemma indent_append (c c' : Code) : (c ++ c').indent = c.indent ++ c'.indent := List.map_append

lemma indent_of_forall_ne (h : ∀ line ∈ body, line ≠ "") :
    body.indent = body.map ("    " ++ ·) := by
  refine List.map_congr_left fun line hline => ?_
  rw [indentLine, if_neg (by simpa using h line hline)]
  rfl

/-- An indented line starts with the indentation, unless it is empty. -/
lemma eq_of_mem_indent {line : String} (h : line ∈ body.indent) :
    line = "" ∨ ∃ rest, line = "    " ++ rest := by
  obtain ⟨rest, _, rfl⟩ := List.mem_map.mp h
  unfold indentLine
  split_ifs
  · exact .inl rfl
  · exact .inr ⟨rest, rfl⟩

/-- Code is cut behind a line that is not empty. -/
lemma trimmed_append_cons {line : String} (h : line ≠ "") (before after : Code) :
    (before ++ line :: after).trimmed = before ++ line :: after.trimmed := by
  have hkept : (line :: before.reverse).dropWhile String.isEmpty = line :: before.reverse :=
    List.dropWhile_cons_of_neg (by simpa using h)
  have hdrop : (after.reverse ++ line :: before.reverse).dropWhile String.isEmpty =
      after.reverse.dropWhile String.isEmpty ++ line :: before.reverse := by
    rw [List.dropWhile_append, hkept]
    split_ifs with hnil
    · rw [List.isEmpty_iff.mp hnil, List.nil_append]
    · rfl
  have hreverse : (before ++ line :: after).reverse = after.reverse ++ line :: before.reverse := by
    simp
  rw [trimmed, hreverse, hdrop, trimmed]
  simp

end Code

/-! ### Classes among lines -/

/-- Among some lines a class with a name begins, and further lines stand together in its body. -/
def HasClass (name : String) (body lines : Code) : Prop :=
  ∃ (before : Code) (bases : String) (inner after : Code),
    lines = before ++ s!"class {name}{bases}:" :: (inner ++ body.map ("    " ++ ·) ++ after) ∧
      (bases = "" ∨ ∃ names : String, bases = s!"({names})") ∧
      ∀ line ∈ inner, line = "" ∨ ∃ rest, line = "    " ++ rest

namespace HasClass

lemma append (h : HasClass name body lines) (front back : Code) :
    HasClass name body (front ++ lines ++ back) := by
  obtain ⟨before, bases, inner, after, rfl, hbases, hinner⟩ := h
  exact ⟨front ++ before, bases, inner, after ++ back, by simp, hbases, hinner⟩

/-- The body of a class is kept where the empty lines at the end are dropped. -/
lemma trimmed (h : HasClass name body lines) (hbody : body ≠ []) :
    HasClass name body lines.trimmed := by
  obtain ⟨before, bases, inner, after, rfl, hbases, hinner⟩ := h
  obtain ⟨front, last, rfl⟩ := List.eq_nil_or_concat body |>.resolve_left hbody
  refine ⟨before, bases, inner, after.trimmed, ?_, hbases, hinner⟩
  have hlast : "    " ++ last ≠ "" := by simp
  have htrimmed := Code.trimmed_append_cons hlast
    (before ++ s!"class {name}{bases}:" :: (inner ++ front.map ("    " ++ ·))) after
  simpa using htrimmed

end HasClass

lemma Class.exists_header (c : Class) : ∃ bases : String,
    c.header = s!"class {c.name}{bases}:" ∧
      (bases = "" ∨ ∃ names : String, bases = s!"({names})") := by
  unfold header
  dsimp only
  split_ifs
  · exact ⟨"", by simp [toString], .inl rfl⟩
  · let names := String.intercalate ", " c.bases
    refine ⟨s!"({names})", ?_, .inr ⟨names, rfl⟩⟩
    rw [← String.toList_inj]
    simp [toString, names]

/-- A class has its members in its body. -/
lemma Class.hasClass {c : Class} {m : Member} (h : m ∈ c.members)
    (hne : ∀ line ∈ m.code, line ≠ "") : HasClass c.name m.code c.code := by
  obtain ⟨members, hmembers, hm⟩ := List.mem_flatten.mp h
  obtain ⟨sections, others, hsections⟩ := List.append_of_mem hmembers
  obtain ⟨earlier, later, rfl⟩ := List.append_of_mem hm
  obtain ⟨bases, hheader, hbases⟩ := c.exists_header
  let inner : Code := c.doc ++ (sections.flatMap fun members => "" :: members.flatMap Member.code) ++
    "" :: earlier.flatMap Member.code
  let after : Code := later.flatMap Member.code ++
    others.flatMap fun members => "" :: members.flatMap Member.code
  refine ⟨[], bases, inner.indent, after.indent, ?_, hbases, fun line => Code.eq_of_mem_indent⟩
  rw [← hheader, ← Code.indent_of_forall_ne hne, ← Code.indent_append, ← Code.indent_append]
  simp [inner, after, code, Code.block, hsections]

/-- The lines of a module have the classes of its items. -/
lemma hasClass_of_mem {items : List Item} {c : Class} (hc : .classDef c ∈ items) {m : Member}
    (hm : m ∈ c.members) (hne : ∀ line ∈ m.code, line ≠ "") :
    HasClass c.name m.code (items.flatMap Item.code) := by
  obtain ⟨earlier, later, rfl⟩ := List.append_of_mem hc
  have hclass := (c.hasClass hm hne).append (earlier.flatMap Item.code ++ .blank 2)
    (later.flatMap Item.code)
  simpa [Item.code] using hclass

end RegisterMap.Accessor
