import Std.Data.TreeSet.Lemmas

/-!
# Name scopes

A name scope hands out the names of a generated module. A name that is taken is varied until it is
free: there are always more variants than names taken.
-/

namespace RegisterMap.Accessor

/-! ### Free variants -/

/-- The first of the variants of a name that is not taken, where `count` names are. Of distinct
variants, as many as there are taken names and one more, some must be free. -/
def firstFree (count : Nat) (isTaken : String → Bool) (variant : Nat → String) : String :=
  let first := (List.range (count + 1)).find? fun n => !isTaken (variant n)
  variant (first.getD 0)

/-- A name with a number, except at zero; numbers start from two. -/
def numbered (name : String) : Nat → String
  | 0 => name
  | n + 1 => s!"{name}{n + 2}"

/-- A name with underscores after it. -/
def underscored (name : String) : Nat → String
  | 0 => name
  | n + 1 => underscored name n ++ "_"

/-- A name that is none of those taken, with as few underscores after it as need be. -/
def avoid (taken : List String) (name : String) : String :=
  firstFree taken.length taken.contains (underscored name)

/-! ### Scopes -/

/-- The names that are taken. -/
structure NameScope where
  taken : Std.TreeSet String

namespace NameScope

/-- The scope in which some names are taken. -/
def ofList (names : List String) : NameScope := ⟨.ofList names⟩

@[simp] theorem mem_taken_ofList {names : List String} {name : String} :
    name ∈ (ofList names).taken ↔ name ∈ names := by
  simp [ofList, Std.TreeSet.mem_ofList]

/-- Take a name, or else the name with the smallest number that makes it free. -/
def claim (name : String) : StateM NameScope String := do
  let taken := (← get).taken
  let free := firstFree taken.size taken.contains (numbered name)
  set (NameScope.mk (taken.insert free))
  return free

/-- Take names in order. -/
def claimAll (names : List String) : StateM NameScope (List String) := names.mapM claim

end NameScope

end RegisterMap.Accessor
