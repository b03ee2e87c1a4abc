import Mathlib.Data.List.FinRange
import Mathlib.Data.List.Infix
import Mathlib.Data.List.Perm.Basic
import RegisterMap.Proofs.Procedure.Verdict
import RegisterMap.Proofs.RangeText

/-!
# The overlaps that are recorded

A bit that several bit fields cover is owned by the first of them, and a bit field is recorded
beside each owner of its bits. So two bit fields that overlap are recorded, once, exactly if the
earlier one owns a bit of the later one. An overlap all of whose bits have an owner before both of
them goes unrecorded.
-/

namespace RegisterMap

namespace BitRange

lemma not_mem_text {c : Char} (hdigit : c.isDigit = false) (hcolon : c ≠ ':') (r : BitRange) :
    c ∉ r.text.toList := by
  have hdecimal := Numeral.not_mem_decimal hdigit
  rw [toList_text]
  split_ifs
  · exact hdecimal r.msb
  · exact Text.not_mem_intercalate (by simpa using hcolon) (by simp [hdecimal])

end BitRange

namespace Coverage

/-! ### Messages of overlaps -/

def Problem.isOverlap : Problem → Bool
  | .overlap _ _ => true
  | _ => false

/-- The words in the message of an overlap. -/
def overlapWords : String := "overlaps with another bit field"

lemma overlapWords_within_message (range owner : BitRange) :
    overlapWords.toList <:+: (Problem.overlap range owner).message.toList := by
  have hmessage : (Problem.overlap range owner).message =
    s!"bit field range '{range}' overlaps with another bit field '{owner}'" := rfl
  have hparts : (Problem.overlap range owner).message.toList =
      s!"bit field range '{range}' ".toList ++ overlapWords.toList ++ s!" '{owner}'".toList := by
    rw [hmessage]
    simp [overlapWords, toString]
  rw [hparts]
  exact List.infix_append _ _ _

/-- The words for an overlap are the only ones with this letter. -/
lemma not_mem_message {p : Problem} (h : p.isOverlap = false) : 'v' ∉ p.message.toList := by
  have htext := BitRange.not_mem_text (c := 'v') rfl (by decide)
  have hrun (run : BitRange) : 'v' ∉ s!"'{run}'".toList := by
    simp [toString, htext]
  match p with
  | .overlap _ _ => cases h
  | .outside range size =>
    have hmessage : (Problem.outside range size).message =
      s!"bit field range '{range}' is not inside register bounds, register size: {size}" := rfl
    have hsize := Numeral.not_mem_decimal (c := 'v') rfl size
    simp [hmessage, toString, htext, hsize]
  | .undefined [run] =>
    have hmessage : (Problem.undefined [run]).message =
      if run.isSingle then s!"register bit '{run}' is undefined"
      else s!"some register bits are undefined, '{run}'" := rfl
    rw [hmessage]
    split_ifs <;> simp [toString, htext]
  | .undefined [] => decide
  | .undefined (run :: next :: runs) =>
    have hmessage : (Problem.undefined (run :: next :: runs)).message =
      "some register bits are undefined, " ++
        String.intercalate ", " ((run :: next :: runs).map fun run => s!"'{run}'") := rfl
    have hruns : 'v' ∉ (String.intercalate ", "
        ((run :: next :: runs).map fun run => s!"'{run}'")).toList := by
      rw [String.toList_intercalate]
      refine Text.not_mem_intercalate (by decide) fun piece hpiece => ?_
      simp only [List.mem_map, exists_exists_and_eq_and] at hpiece
      obtain ⟨run, _, rfl⟩ := hpiece
      exact hrun run
    rw [hmessage, String.toList_append, List.mem_append, not_or]
    exact ⟨by decide, hruns⟩

/-- The diagnostics whose message has the words for an overlap. -/
def overlapsAmong (ds : List Diagnostic) : List Diagnostic :=
  ds.filter fun d => overlapWords.toList <:+: d.message.toList

lemma overlapsAmong_problems (path : Path) (problems : List Problem) :
    overlapsAmong (problems.map fun p => .constraint .register path p.message) =
      (problems.filter Problem.isOverlap).map fun p => .constraint .register path p.message := by
  have hwords (p : Problem) :
      decide (overlapWords.toList <:+: p.message.toList) = p.isOverlap := by
    cases h : p.isOverlap with
    | true =>
      obtain ⟨range, owner, rfl⟩ : ∃ range owner, p = .overlap range owner := by
        cases p <;> simp_all [Problem.isOverlap]
      exact decide_eq_true (overlapWords_within_message range owner)
    | false =>
      refine decide_eq_false fun hwithin => not_mem_message h (hwithin.subset ?_)
      decide
  rw [overlapsAmong, List.filter_map]
  simp only [Function.comp_def, Diagnostic.constraint, hwords]

lemma filter_isOverlap_rangeProblems (size : Nat) (earlier : List BitRange) (range : BitRange) :
    (rangeProblems size earlier range).filter Problem.isOverlap =
      ((bitsInside size range).filterMap (owner? earlier)).eraseDups.map (.overlap range) := by
  have hoverlap (owners : List BitRange) :
      (owners.map (Problem.overlap range)).filter Problem.isOverlap =
        owners.map (.overlap range) := by
    simp [Problem.isOverlap]
  have houtside : (if size ≤ range.msb then [Problem.outside range size] else []).filter
      Problem.isOverlap = [] := by
    split_ifs <;> simp [Problem.isOverlap]
  rw [rangeProblems, List.filter_append, hoverlap, houtside, List.append_nil]

lemma filter_isOverlap_problems (size : Nat) (fields : List BitField)
    (refused : Option (List BitRange)) :
    (problems size (fields.map (·.range)) refused).filter Problem.isOverlap =
      (List.finRange fields.length).flatMap fun j : Fin fields.length =>
        let range := (fields.get j).range
        ((bitsInside size range).filterMap
          (owner? ((fields.map (·.range)).take j))).eraseDups.map (.overlap range) := by
  have hundefined (others : List BitRange) :
      (undefinedProblems size others).filter Problem.isOverlap = [] := by
    unfold undefinedProblems
    split <;> simp [Problem.isOverlap]
  rw [problems.eq_def, List.filter_append, inTurn_map_eq_flatMap, List.filter_flatMap]
  cases refused <;> simp [hundefined, filter_isOverlap_rangeProblems]

end Coverage

namespace Procedure

/-! ### Pairs of bit fields -/

variable {fields : List BitField} {i j : Fin fields.length}

/-- The pairs of bit fields that share a bit, as positions with the earlier one first. -/
def overlappingPairs (fields : List BitField) : List (Fin fields.length × Fin fields.length) :=
  (List.finRange fields.length).flatMap fun j =>
    ((List.finRange fields.length).filter fun i =>
      i < j ∧ ¬ (fields.get i).range.Apart (fields.get j).range).map (·, j)

/-- Whether the first bit field of a pair is the first owner of a bit of the second one. -/
def Owns (size : Nat) (fields : List BitField) (i j : Fin fields.length) : Prop :=
  ∃ bit ∈ Coverage.bitsInside size (fields.get j).range, firstField fields bit = some i.val

instance (size : Nat) (i j : Fin fields.length) : Decidable (Owns size fields i j) :=
  inferInstanceAs (Decidable (∃ bit ∈ Coverage.bitsInside size (fields.get j).range,
    firstField fields bit = some i.val))

/-- The pairs that share a bit of the register that the earlier bit field owns. -/
def ownedPairs (size : Nat) (fields : List BitField) :
    List (Fin fields.length × Fin fields.length) :=
  (overlappingPairs fields).filter fun pair => Owns size fields pair.1 pair.2

/-- The diagnostic for a pair of bit fields that overlap, with the later one in front. -/
def overlapDiagnostic (path : Path) (fields : List BitField)
    (pair : Fin fields.length × Fin fields.length) : Diagnostic :=
  let range := (fields.get pair.2).range.spelled
  let owner := (fields.get pair.1).range.spelled
  ⟨.constraint, .register, path, none,
    s!"bit field range '{range}' overlaps with another bit field '{owner}'"⟩

variable {size : Nat}

lemma constraint_overlap (path : Path) (i j : Fin fields.length) :
    Diagnostic.constraint .register path
        (Coverage.Problem.overlap (fields.get j).range (fields.get i).range).message =
      overlapDiagnostic path fields (i, j) := by
  have hmessage (range owner : BitRange) : (Coverage.Problem.overlap range owner).message =
    s!"bit field range '{range.text}' overlaps with another bit field '{owner.text}'" := rfl
  rw [hmessage, BitRange.text_eq_spelled, BitRange.text_eq_spelled]
  rfl

lemma mem_overlappingPairs :
    (i, j) ∈ overlappingPairs fields ↔
      i < j ∧ ¬ (fields.get i).range.Apart (fields.get j).range := by
  simp [overlappingPairs]

lemma not_apart_of_owns (h : Owns size fields i j) :
    ¬ (fields.get i).range.Apart (fields.get j).range := by
  obtain ⟨bit, hbit, hfirst⟩ := h
  obtain ⟨_, hcontains, _⟩ := List.findIdx?_eq_some_iff_getElem.mp hfirst
  have hboth := (Coverage.mem_bitsInside.mp hbit).1
  intro hapart
  rw [hapart bit hcontains] at hboth
  cases hboth

lemma ownedPairs_eq : ownedPairs size fields =
    (List.finRange fields.length).flatMap fun j =>
      ((List.finRange fields.length).filter fun i => i < j ∧ Owns size fields i j).map (·, j) := by
  rw [ownedPairs, overlappingPairs, List.filter_flatMap]
  refine List.flatMap_congr fun j _ => ?_
  rw [List.filter_map, List.filter_filter]
  congr 1
  refine List.filter_congr fun i _ => ?_
  simp only [Function.comp_apply, decide_eq_decide, ← Bool.decide_and]
  have hmeet : Owns size fields i j → ¬ (fields.get i).range.Apart (fields.get j).range :=
    not_apart_of_owns
  tauto

/-! ### Owners among the earlier bit fields -/

lemma owner?_take_eq_some_iff {bit : Nat} {range : BitRange} :
    Coverage.owner? ((fields.map (·.range)).take j) bit = some range ↔
      ∃ i, i < j ∧ firstField fields bit = some i.val ∧ (fields.get i).range = range := by
  have htake (position : Nat) : firstField (fields.take j) bit = some position ↔
      firstField fields bit = some position ∧ position < j := by
    simp [firstField, List.findIdx?_take, Option.bind_eq_some_iff, Option.guard_eq_some_iff]
  rw [← List.map_take]
  constructor
  · intro h
    cases hfirst : firstField (fields.take j) bit with
    | none =>
      rw [owner?_eq_none_of_firstField hfirst] at h
      cases h
    | some position =>
      obtain ⟨f, hf, _, howner⟩ := exists_getElem_of_firstField hfirst
      obtain ⟨hposition, hlt⟩ := (htake position).mp hfirst
      rw [List.getElem?_take_of_lt hlt, List.getElem?_eq_some_iff] at hf
      obtain ⟨hlength, rfl⟩ := hf
      rw [howner] at h
      exact ⟨⟨position, hlength⟩, hlt, hposition, Option.some_inj.mp h⟩
  · rintro ⟨i, hij, hfirst, rfl⟩
    obtain ⟨f, hf, _, howner⟩ := exists_getElem_of_firstField ((htake i).mpr ⟨hfirst, hij⟩)
    rw [List.getElem?_take_of_lt hij, List.getElem?_eq_getElem i.isLt] at hf
    rw [howner, ← Option.some_inj.mp hf]
    rfl

/-- The owners of the bits of a bit field, each once, are those of the pairs. -/
lemma eraseDups_owners_perm (size : Nat) (j : Fin fields.length) :
    ((Coverage.bitsInside size (fields.get j).range).filterMap
        (Coverage.owner? ((fields.map (·.range)).take j))).eraseDups.Perm
      (((List.finRange fields.length).filter fun i => i < j ∧ Owns size fields i j).map
        fun i => (fields.get i).range) := by
  have hdistinct : (((List.finRange fields.length).filter fun i =>
      i < j ∧ Owns size fields i j).map fun i => (fields.get i).range).Nodup := by
    refine List.Nodup.map_on (fun i hi i' hi' hrange => ?_)
      ((List.nodup_finRange _).filter _)
    obtain ⟨_, bit, _, hfirst⟩ := by simpa using hi
    obtain ⟨_, bit', _, hfirst'⟩ := by simpa using hi'
    exact Fin.ext (firstField_inj hfirst hfirst' (List.getElem?_eq_getElem i.isLt)
      (List.getElem?_eq_getElem i'.isLt) hrange)
  refine (List.perm_ext_iff_of_nodup (nodup_eraseDups _) hdistinct).mpr fun range => ?_
  simp only [List.mem_eraseDups, List.mem_filterMap, owner?_take_eq_some_iff, List.mem_map,
    List.mem_filter, List.mem_finRange, true_and, decide_eq_true_eq]
  constructor
  · rintro ⟨bit, hbit, i, hij, hfirst, rfl⟩
    exact ⟨i, ⟨hij, bit, hbit, hfirst⟩, rfl⟩
  · rintro ⟨i, ⟨hij, bit, hbit, hfirst⟩, rfl⟩
    exact ⟨bit, hbit, i, hij, hfirst, rfl⟩

/-! ### The overlaps that are recorded -/

/-- The diagnostics of overlaps are those of the pairs whose earlier bit field owns a bit of the
later one. -/
lemma overlapsAmong_diagnostics_perm (path : Path) (r : Register)
    (refused : Option (List BitRange)) :
    (Coverage.overlapsAmong (Coverage.diagnostics path r refused)).Perm
      ((ownedPairs r.size.bits r.bitFields).map (overlapDiagnostic path r.bitFields)) := by
  rw [Coverage.diagnostics, Coverage.overlapsAmong_problems, Coverage.filter_isOverlap_problems,
    ownedPairs_eq, List.map_flatMap, List.map_flatMap]
  refine List.Perm.flatMap_left _ fun j _ => ?_
  have howners := (eraseDups_owners_perm r.size.bits j).map fun owner =>
    Diagnostic.constraint .register path
      (Coverage.Problem.overlap (r.bitFields.get j).range owner).message
  simp only [List.map_map, Function.comp_def, constraint_overlap] at howners ⊢
  exact howners

/-- Whether any two bit fields that overlap share a bit of the register that the earlier one
owns. -/
def OverlapsOwned (size : Nat) (fields : List BitField) : Prop :=
  ∀ i j : Fin fields.length, i < j →
    ¬ (fields.get i).range.Apart (fields.get j).range → Owns size fields i j

lemma forall_owns_iff : (∀ pair ∈ overlappingPairs fields, Owns size fields pair.1 pair.2) ↔
    OverlapsOwned size fields := by
  simp only [Prod.forall, mem_overlappingPairs, and_imp]
  rfl

lemma length_ownedPairs_iff : (ownedPairs size fields).length = (overlappingPairs fields).length ↔
    OverlapsOwned size fields := by
  rw [ownedPairs, List.length_filter_eq_length_iff, ← forall_owns_iff]
  simp only [decide_eq_true_eq]

/-- What the scan of the bits of a register records of overlaps: for each pair of bit fields of
which the earlier one is the first to cover some bit of the later one, exactly one diagnostic, which
names the range of the later one before that of the earlier one. So each pair of bit fields that
share a bit is recorded once if and only if every such pair has a bit of which the earlier bit field
is the first owner. -/
theorem checkBitFields_overlaps (r : Register) (refused : Option (List BitRange)) (c : Context) :
    ∃ ds, (checkBitFields r refused).run c = .ok () (c.record ds) ∧
      (Coverage.overlapsAmong ds).Perm
        ((ownedPairs r.size.bits r.bitFields).map (overlapDiagnostic c.path r.bitFields)) ∧
      ((Coverage.overlapsAmong ds).length = (overlappingPairs r.bitFields).length ↔
        OverlapsOwned r.size.bits r.bitFields) ∧
      ((Coverage.overlapsAmong ds).Perm
          ((overlappingPairs r.bitFields).map (overlapDiagnostic c.path r.bitFields)) ↔
        OverlapsOwned r.size.bits r.bitFields) := by
  have hperm := overlapsAmong_diagnostics_perm c.path r refused
  have hlength := hperm.length_eq
  rw [List.length_map] at hlength
  refine ⟨_, run_checkBitFields r refused c, hperm, ?_, fun h => ?_, fun h => ?_⟩
  · rw [hlength, length_ownedPairs_iff]
  · rw [← length_ownedPairs_iff, ← hlength, h.length_eq, List.length_map]
  · have hall : ownedPairs r.size.bits r.bitFields = overlappingPairs r.bitFields := by
      rw [ownedPairs, List.filter_eq_self]
      simpa only [decide_eq_true_eq] using forall_owns_iff.mpr h
    rwa [hall] at hperm

/-- A register with three bit fields that all share the bits two and three. -/
def sharedRegister : Register :=
  { name := "status", access := .readWrite, size := .size8, readLocation := ⟨.absolute, 0⟩,
    writeLocation := ⟨.absolute, 0⟩,
    bitFields := [⟨⟨3, 0, by omega⟩, some "a", none⟩, ⟨⟨5, 2, by omega⟩, some "b", none⟩,
      ⟨⟨3, 1, by omega⟩, some "c", none⟩, ⟨⟨7, 6, by omega⟩, some "d", none⟩],
    enums := [], description := none, slot := none }

/-- The second and the third bit field overlap, but the first one owns what they share. There are
fewer diagnostics than pairs that overlap, and none for these two. -/
theorem checkBitFields_overlap_unrecorded :
    (∀ f ∈ sharedRegister.bitFields, f.range.msb < sharedRegister.size.bits) ∧
      (overlappingPairs sharedRegister.bitFields).length = 3 ∧
      ∃ ds, (checkBitFields sharedRegister (some [])).run .empty =
          .ok () (Context.empty.record ds) ∧
        (Coverage.overlapsAmong ds).length = 2 ∧
        ∃ pair ∈ overlappingPairs sharedRegister.bitFields,
          overlapDiagnostic [] sharedRegister.bitFields pair ∉ ds := by
  refine ⟨by decide, by decide, [
    .constraint .register [] "bit field range '5:2' overlaps with another bit field '3:0'",
    .constraint .register [] "bit field range '3:1' overlaps with another bit field '3:0'"],
    ?_, ?_, (⟨1, by decide⟩, ⟨2, by decide⟩), ?_, ?_⟩
  · rfl
  · decide
  · decide
  · decide

end Procedure

end RegisterMap
