import Mathlib.Data.List.Nodup
import Mathlib.Data.List.Perm.Subperm
import Mathlib.Tactic.Lemma
import RegisterMap.Accessor.NameScope
import Std.Data.String.ToNat

/-!
# Free names

Of the variants of a name, one more than there are names taken, one is free, and the search finds
the first of them. A scope therefore hands out a name that was not taken before, and takes that name
and no other. Steps that take names compose to a step that takes the names of both.
-/

namespace RegisterMap.Accessor

/-! ### Free variants -/

section Variants

variable {count : Nat} {isTaken : String → Bool} {variant : Nat → String}

/-- If one of the variants is free, then the search finds the first that is. -/
lemma exists_firstFree_eq (h : ∃ n ≤ count, isTaken (variant n) = false) :
    ∃ n, firstFree count isTaken variant = variant n ∧ isTaken (variant n) = false ∧
      ∀ k < n, isTaken (variant k) = true := by
  obtain ⟨n, hn, hfree⟩ := h
  have hsome : ((List.range (count + 1)).find? fun n => !isTaken (variant n)).isSome = true := by
    rw [List.find?_isSome]
    exact ⟨n, List.mem_range.mpr (by omega), by simp [hfree]⟩
  obtain ⟨first, hfirst⟩ := Option.isSome_iff_exists.mp hsome
  obtain ⟨hfound, _, hbefore⟩ := List.find?_range_eq_some.mp hfirst
  exact ⟨first, by simp [firstFree, hfirst], by simpa using hfound, by simpa using hbefore⟩

/-- Of distinct variants, as many as there are taken names and one more, one is free. -/
lemma exists_not_mem_of_injective (taken : List String) (hvariant : Function.Injective variant) :
    ∃ n ≤ taken.length, variant n ∉ taken := by
  by_contra hnone
  push Not at hnone
  have hnodup : ((List.range (taken.length + 1)).map variant).Nodup :=
    List.nodup_range.map hvariant
  have hsub : (List.range (taken.length + 1)).map variant ⊆ taken := by
    intro name hname
    obtain ⟨n, hn, rfl⟩ := List.mem_map.mp hname
    exact hnone n (by have := List.mem_range.mp hn; omega)
  have hlength := (List.subperm_of_subset hnodup hsub).length_le
  simp only [List.length_map, List.length_range] at hlength
  omega

end Variants

@[simp] lemma numbered_zero (name : String) : numbered name 0 = name := rfl

@[simp] lemma numbered_succ (name : String) (n : Nat) :
    numbered name (n + 1) = name ++ (n + 2).repr := by
  simp [numbered, toString]

@[simp] lemma underscored_zero (name : String) : underscored name 0 = name := rfl

@[simp] lemma underscored_succ (name : String) (n : Nat) :
    underscored name (n + 1) = underscored name n ++ "_" := rfl

lemma numbered_injective (name : String) : Function.Injective (numbered name) := by
  have hne (n : Nat) : name ≠ name ++ (n + 2).repr := by
    rw [Ne, eq_comm, String.append_eq_left_iff]
    exact Nat.repr_ne_empty
  intro n k h
  match n, k with
  | 0, 0 => rfl
  | 0, k + 1 => exact absurd h (by simpa using hne k)
  | n + 1, 0 => exact absurd h.symm (by simpa using hne n)
  | n + 1, k + 1 =>
    rw [numbered_succ, numbered_succ, String.append_right_inj, Nat.repr_inj] at h
    omega

/-! ### Avoided names -/

lemma length_underscored (name : String) (n : Nat) :
    (underscored name n).length = name.length + n := by
  induction n with
  | zero => rfl
  | succ n ih => rw [underscored_succ, String.length_append, ih]; rfl

lemma underscored_injective (name : String) : Function.Injective (underscored name) := by
  intro n k h
  have hlength := congrArg String.length h
  rw [length_underscored, length_underscored] at hlength
  omega

/-- A name is avoided by the least count of underscores that makes it free. -/
lemma exists_avoid_eq (taken : List String) (name : String) :
    ∃ n, avoid taken name = underscored name n ∧ underscored name n ∉ taken ∧
      ∀ k < n, underscored name k ∈ taken := by
  obtain ⟨free, hfree, hnot⟩ := exists_not_mem_of_injective taken (underscored_injective name)
  have hexists : ∃ n ≤ taken.length, taken.contains (underscored name n) = false :=
    ⟨free, hfree, by simpa using hnot⟩
  obtain ⟨n, heq, hn, hbefore⟩ := exists_firstFree_eq hexists
  exact ⟨n, heq, by simpa using hn, fun k hk => by simpa using hbefore k hk⟩

lemma avoid_of_not_mem {taken : List String} {name : String} (h : name ∉ taken) :
    avoid taken name = name := by
  obtain ⟨n, heq, _, hbefore⟩ := exists_avoid_eq taken name
  cases n with
  | zero => exact heq
  | succ n => exact absurd (hbefore 0 (by omega)) h

lemma avoid_of_mem {taken : List String} {name : String} (h : name ∈ taken)
    (hfree : name ++ "_" ∉ taken) : avoid taken name = name ++ "_" := by
  obtain ⟨n, heq, hn, hbefore⟩ := exists_avoid_eq taken name
  match n with
  | 0 => exact absurd h hn
  | 1 => exact heq
  | n + 2 => exact absurd (hbefore 1 (by omega)) hfree

/-! ### Steps that take names -/

/-- A name is the name that was asked for or a numbered variant of it. -/
def IsVariant (asked name : String) : Prop := ∃ n, name = numbered asked n

/-- Going from one scope to another takes the names of a list, which are all new and different. -/
structure Takes (s s' : NameScope) (names : List String) : Prop where
  nodup : names.Nodup
  fresh : ∀ name ∈ names, name ∉ s.taken
  mem_iff : ∀ name, name ∈ s'.taken ↔ name ∈ s.taken ∨ name ∈ names

namespace Takes

variable {s s₁ s₂ : NameScope} {names names' : List String}

lemma nil (s : NameScope) : Takes s s [] := ⟨List.nodup_nil, by simp, by simp⟩

lemma append (h : Takes s s₁ names) (h' : Takes s₁ s₂ names') : Takes s s₂ (names ++ names') := by
  refine ⟨List.nodup_append.mpr ⟨h.nodup, h'.nodup, ?_⟩, ?_, ?_⟩
  · rintro a ha b hb rfl
    exact h'.fresh a hb ((h.mem_iff a).mpr (.inr ha))
  · intro name hname
    rcases List.mem_append.mp hname with hname | hname
    · exact h.fresh name hname
    · exact fun hmem => h'.fresh name hname ((h.mem_iff name).mpr (.inl hmem))
  · intro name
    rw [h'.mem_iff, h.mem_iff, List.mem_append, or_assoc]

end Takes

namespace NameScope

/-- A scope hands out the first variant of a name that is free, and takes it. -/
lemma exists_claim_eq (name : String) (s : NameScope) :
    ∃ n s', (claim name).run s = (numbered name n, s') ∧ Takes s s' [numbered name n] ∧
      ∀ k < n, numbered name k ∈ s.taken := by
  have hexists : ∃ n ≤ s.taken.size, s.taken.contains (numbered name n) = false := by
    obtain ⟨n, hn, hfree⟩ :=
      exists_not_mem_of_injective s.taken.toList (numbered_injective name)
    rw [Std.TreeSet.length_toList] at hn
    rw [Std.TreeSet.mem_toList, ← Std.TreeSet.contains_iff_mem] at hfree
    exact ⟨n, hn, Bool.eq_false_iff.mpr hfree⟩
  obtain ⟨n, heq, hfree, hbefore⟩ := exists_firstFree_eq hexists
  refine ⟨n, ⟨s.taken.insert (numbered name n)⟩, ?_, ⟨by simp, ?_, ?_⟩, ?_⟩
  · rw [← heq]
    rfl
  · intro other hother
    rw [List.mem_singleton.mp hother, ← Std.TreeSet.contains_iff_mem, hfree]
    simp
  · intro other
    rw [Std.TreeSet.mem_insert, List.mem_singleton, Std.LawfulEqCmp.compare_eq_iff_eq, eq_comm, or_comm]
  · intro k hk
    exact Std.TreeSet.contains_iff_mem.mp (hbefore k hk)

/-- A scope hands out the name that is asked for unless it is taken, and a variant of it in any case,
and takes what it hands out. -/
lemma exists_claim (asked : String) (s : NameScope) :
    ∃ name s', (claim asked).run s = (name, s') ∧ IsVariant asked name ∧ Takes s s' [name] ∧
      asked ∈ s'.taken := by
  obtain ⟨n, s', heq, htakes, hbefore⟩ := exists_claim_eq asked s
  refine ⟨_, s', heq, ⟨n, rfl⟩, htakes, (htakes.mem_iff asked).mpr ?_⟩
  cases n with
  | zero => exact .inr (List.mem_singleton_self _)
  | succ n => exact .inl (hbefore 0 (by omega))

end NameScope

end RegisterMap.Accessor
