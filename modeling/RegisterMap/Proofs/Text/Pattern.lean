import Mathlib.Tactic.Lemma
import Mathlib.Tactic.SplitIfs
import RegisterMap.Text.Pattern

/-!
# Matches of patterns

The preferred match of a pattern is told by its parts. For a run of characters with something after
it there is an equation by the first character of the text: the run goes on if the whole matches
later, and else ends where its rest matches. What was matched is made of what the parts matched.
-/

namespace RegisterMap.Text.Pattern

variable {p : Char → Bool} {a b : Pattern} {c : Char} {cs : List Char} {m : Match}

/-! ### Preferred matches -/

lemma ways_optional (a : Pattern) (cs : List Char) :
    (optional a).ways cs = a.ways cs ++ [⟨[], cs⟩] := rfl

lemma ways_many (p : Char → Bool) (cs : List Char) :
    (many p).ways cs = (optional (many1 p)).ways cs := by
  cases cs with
  | nil => rfl
  | cons c cs => cases hc : p c <;> simp [ways_optional, many1, ways, runs, hc]

lemma ways_seq_seq (a b c : Pattern) (cs : List Char) :
    (seq (seq a b) c).ways cs = (seq a (seq b c)).ways cs := by
  simp [ways, List.flatMap_assoc, List.flatMap_map, List.map_flatMap, Function.comp_def]

lemma first?_alt (a b : Pattern) (cs : List Char) :
    (alt a b).first? cs = (a.first? cs).or (b.first? cs) := by
  simp [first?, ways, List.head?_append]

lemma first?_optional (a : Pattern) (cs : List Char) :
    (optional a).first? cs = (a.first? cs).or (some ⟨[], cs⟩) :=
  first?_alt a empty cs

lemma first?_optional_seq (a b : Pattern) (cs : List Char) :
    (seq (optional a) b).first? cs = ((seq a b).first? cs).or (b.first? cs) := by
  simp [first?, ways_optional, ways, List.head?_append]

lemma first?_many (p : Char → Bool) (cs : List Char) :
    (many p).first? cs = ((many1 p).first? cs).or (some ⟨[], cs⟩) := by
  rw [← first?_optional, first?, ways_many, first?]

lemma first?_char_seq (hc : p c = true) (b : Pattern) (cs : List Char) :
    (seq (char p) b).first? (c :: cs) = (b.first? cs).map (·.after [c]) := by
  simp [first?, ways, hc]

lemma first?_char_seq_eq_none (hc : p c = false) (b : Pattern) (cs : List Char) :
    (seq (char p) b).first? (c :: cs) = none := by
  simp [first?, ways, hc]

lemma first?_many1_cons (hc : p c = true) (cs : List Char) :
    (many1 p).first? (c :: cs) = (((many1 p).first? cs).or (some ⟨[], cs⟩)).map (·.after [c]) := by
  rw [← first?_many]
  exact first?_char_seq hc _ cs

lemma first?_many1_eq_none (hc : p c = false) (cs : List Char) :
    (many1 p).first? (c :: cs) = none :=
  first?_char_seq_eq_none hc _ cs

lemma first?_many1_seq (p : Char → Bool) (b : Pattern) (cs : List Char) :
    (seq (many1 p) b).first? cs = (seq (char p) (seq (many p) b)).first? cs := by
  rw [first?, many1, ways_seq_seq, first?]

/-- A run goes on if the rest of the pattern matches later, and else ends where that matches. -/
lemma first?_many1_seq_cons (hc : p c = true) (b : Pattern) (cs : List Char) :
    (seq (many1 p) b).first? (c :: cs) =
      (((seq (many1 p) b).first? cs).or (b.first? cs)).map (·.after [c]) := by
  have hmany : (seq (many p) b).ways cs = (seq (optional (many1 p)) b).ways cs := by
    rw [ways, ways_many, ← ways]
  calc (seq (many1 p) b).first? (c :: cs)
    _ = (seq (char p) (seq (many p) b)).first? (c :: cs) := first?_many1_seq p b _
    _ = ((seq (many p) b).first? cs).map (·.after [c]) := first?_char_seq hc _ cs
    _ = (((seq (many1 p) b).first? cs).or (b.first? cs)).map (·.after [c]) := by
      rw [first?, hmany, ← first?, first?_optional_seq]

lemma first?_many1_seq_eq_none (hc : p c = false) (b : Pattern) (cs : List Char) :
    (seq (many1 p) b).first? (c :: cs) = none := by
  rw [first?_many1_seq, first?_char_seq_eq_none hc]

lemma first?_before (a : Pattern) (cs : List Char) :
    (before a).first? cs = (a.first? cs).map fun _ => ⟨[], cs⟩ := by
  cases h : a.ways cs <;> simp [first?, ways, h]

/-! ### What was matched -/

lemma mem_ways_seq_iff : m ∈ (seq a b).ways cs ↔
    ∃ x ∈ a.ways cs, ∃ y ∈ b.ways x.rest, y.after x.taken = m := by
  simp [ways]

lemma mem_ways_alt_iff : m ∈ (alt a b).ways cs ↔ m ∈ a.ways cs ∨ m ∈ b.ways cs := List.mem_append

lemma forall_mem_taken_of_mem_ways_many (h : m ∈ (many p).ways cs) :
    ∀ c ∈ m.taken, p c = true := by
  rw [ways] at h
  induction cs generalizing m with
  | nil =>
    cases List.mem_singleton.mp h
    simp
  | cons c cs ih =>
    rw [runs] at h
    split_ifs at h with hc
    · rcases List.mem_append.mp h with h | h
      · obtain ⟨n, hn, rfl⟩ := List.mem_map.mp h
        exact List.forall_mem_cons.mpr ⟨hc, ih hn⟩
      · cases List.mem_singleton.mp h
        simp
    · cases List.mem_singleton.mp h
      simp

lemma exists_taken_eq_of_mem_ways_char (h : m ∈ (char p).ways cs) :
    ∃ c, p c = true ∧ m.taken = [c] := by
  cases cs with
  | nil => cases h
  | cons c cs =>
    rw [ways] at h
    split_ifs at h with hc
    · cases List.mem_singleton.mp h
      exact ⟨c, hc, rfl⟩
    · cases h

lemma of_mem_ways_many1 (h : m ∈ (many1 p).ways cs) :
    m.taken ≠ [] ∧ ∀ c ∈ m.taken, p c = true := by
  obtain ⟨x, hx, y, hy, rfl⟩ := mem_ways_seq_iff.mp h
  obtain ⟨c, hc, htaken⟩ := exists_taken_eq_of_mem_ways_char hx
  rw [Match.taken_after, htaken]
  exact ⟨List.cons_ne_nil _ _,
    List.forall_mem_cons.mpr ⟨hc, forall_mem_taken_of_mem_ways_many hy⟩⟩

lemma taken_eq_nil_of_mem_ways_before (h : m ∈ (before a).ways cs) : m.taken = [] := by
  rw [ways] at h
  split_ifs at h
  · cases h
  · cases List.mem_singleton.mp h
    rfl

end RegisterMap.Text.Pattern
