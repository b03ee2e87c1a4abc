/-!
# Patterns

A pattern matches the start of a text, perhaps in several ways, of which it prefers some: the first
of two alternatives, and the longest run of characters. Where the rest of a pattern does not match
after the preferred way, the next one is tried. A search takes the preferred match, goes on after
it, and passes over a character where there is no match.
-/

namespace RegisterMap.Text

/-- What was matched at the start of a text, and the rest of the text. -/
structure Match where
  taken : List Char
  rest : List Char

/-- A match of what stands after some characters that were matched as well. -/
def Match.after (m : Match) (front : List Char) : Match := { m with taken := front ++ m.taken }

@[simp] theorem Match.after_mk (front taken rest : List Char) :
    (Match.mk taken rest).after front = ⟨front ++ taken, rest⟩ := rfl

@[simp] theorem Match.taken_after (m : Match) (front : List Char) :
    (m.after front).taken = front ++ m.taken := rfl

@[simp] theorem Match.rest_after (m : Match) (front : List Char) :
    (m.after front).rest = m.rest := rfl

@[simp] theorem Match.after_nil (m : Match) : m.after [] = m := rfl

@[simp] theorem Match.after_after (m : Match) (front back : List Char) :
    (m.after back).after front = m.after (front ++ back) := by
  simp [after]

inductive Pattern
  | empty
  | char (p : Char → Bool)
  | many (p : Char → Bool)
  | seq (a b : Pattern)
  | alt (a b : Pattern)
  /-- Nothing, in front of what another pattern matches. -/
  | before (a : Pattern)

namespace Pattern

def many1 (p : Char → Bool) : Pattern := .seq (.char p) (.many p)

def optional (a : Pattern) : Pattern := .alt a .empty

/-! ### Matches at the start -/

/-- The runs of characters of a class at the start of a text, the longest one first. -/
def runs (p : Char → Bool) : List Char → List Match
  | [] => [⟨[], []⟩]
  | c :: cs => if p c then (runs p cs).map (·.after [c]) ++ [⟨[], c :: cs⟩] else [⟨[], c :: cs⟩]

/-- The ways in which a pattern matches the start of a text, the preferred one first. -/
def ways : Pattern → List Char → List Match
  | .empty, cs => [⟨[], cs⟩]
  | .char _, [] => []
  | .char p, c :: cs => if p c then [⟨[c], cs⟩] else []
  | .many p, cs => runs p cs
  | .seq a b, cs => (a.ways cs).flatMap fun m => (b.ways m.rest).map (·.after m.taken)
  | .alt a b, cs => a.ways cs ++ b.ways cs
  | .before a, cs => if (a.ways cs).isEmpty then [] else [⟨[], cs⟩]

def first? (a : Pattern) (cs : List Char) : Option Match := (a.ways cs).head?

theorem append_of_mem_runs {p : Char → Bool} {cs : List Char} {m : Match} (h : m ∈ runs p cs) :
    m.taken ++ m.rest = cs := by
  induction cs generalizing m with
  | nil =>
    cases List.mem_singleton.mp h
    rfl
  | cons c cs ih =>
    rw [runs] at h
    split at h
    · rcases List.mem_append.mp h with h | h
      · obtain ⟨n, hn, rfl⟩ := List.mem_map.mp h
        exact congrArg (c :: ·) (ih hn)
      · cases List.mem_singleton.mp h
        rfl
    · cases List.mem_singleton.mp h
      rfl

/-- A match is the start of the text, and nothing is lost after it. -/
theorem append_of_mem_ways {a : Pattern} {cs : List Char} {m : Match} (h : m ∈ a.ways cs) :
    m.taken ++ m.rest = cs := by
  induction a generalizing cs m with
  | empty =>
    cases List.mem_singleton.mp h
    rfl
  | char p =>
    cases cs with
    | nil => cases h
    | cons c cs =>
      rw [ways] at h
      split at h
      · cases List.mem_singleton.mp h
        rfl
      · cases h
  | many p => exact append_of_mem_runs h
  | seq a b iha ihb =>
    obtain ⟨m, hm, h⟩ := List.mem_flatMap.mp h
    obtain ⟨n, hn, rfl⟩ := List.mem_map.mp h
    calc (m.taken ++ n.taken) ++ n.rest
      _ = m.taken ++ (n.taken ++ n.rest) := List.append_assoc ..
      _ = m.taken ++ m.rest := by rw [ihb hn]
      _ = cs := iha hm
  | alt a b iha ihb =>
    rcases List.mem_append.mp h with h | h
    · exact iha h
    · exact ihb h
  | before a =>
    rw [ways] at h
    split at h
    · cases h
    · cases List.mem_singleton.mp h
      rfl

theorem append_of_first? {a : Pattern} {cs : List Char} {m : Match} (h : a.first? cs = some m) :
    m.taken ++ m.rest = cs :=
  append_of_mem_ways (List.mem_of_head? h)

theorem length_rest_lt {a : Pattern} {cs : List Char} {m : Match} (h : a.first? cs = some m)
    (hne : m.taken ≠ []) : m.rest.length < cs.length := by
  rw [← append_of_first? h, List.length_append]
  exact Nat.lt_add_of_pos_left (List.length_pos_iff.mpr hne)

/-! ### Matches in a text -/

/-- The matches in a text that are not empty, from left to right. -/
def findAll (a : Pattern) : List Char → List (List Char)
  | [] => []
  | c :: cs =>
    match h : a.first? (c :: cs) with
    | some ⟨d :: w, rest⟩ =>
      have : rest.length < cs.length + 1 := length_rest_lt h (List.cons_ne_nil d w)
      (d :: w) :: a.findAll rest
    | some ⟨[], _⟩ | none => a.findAll cs
termination_by cs => cs.length

theorem findAll_of_first?_eq_none {a : Pattern} {c : Char} {cs : List Char}
    (h : a.first? (c :: cs) = none) : a.findAll (c :: cs) = a.findAll cs := by
  rw [findAll]
  split <;> simp_all

theorem findAll_of_first?_eq_some {a : Pattern} {cs : List Char} {m : Match}
    (h : a.first? cs = some m) (hne : m.taken ≠ []) :
    a.findAll cs = m.taken :: a.findAll m.rest := by
  obtain ⟨taken, rest⟩ := m
  obtain ⟨d, w, rfl⟩ := List.exists_cons_of_ne_nil hne
  cases cs with
  | nil => exact absurd (append_of_first? h) (List.cons_ne_nil d (w ++ rest))
  | cons c cs =>
    rw [findAll]
    split <;> simp_all

end Pattern

end RegisterMap.Text
