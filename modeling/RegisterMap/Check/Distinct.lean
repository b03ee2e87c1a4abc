import RegisterMap.Check.Part
import RegisterMap.Name.Style

/-!
# Distinct names and values

Some entities must differ in a property, such as the style of their names. Each entity that does
not clashes with the first one before it that has the same property.
-/

namespace RegisterMap

/-! ### Clashes -/

/-- What comes of the items of a list, each seen together with the items before it. -/
def inTurn {α β : Type} (f : List α → α → List β) (earlier : List α) : List α → List β
  | [] => []
  | a :: rest => f earlier a ++ inTurn f (earlier ++ [a]) rest

/-- The first of the earlier items that has the same property. -/
def rival? {α β : Type} [BEq β] (property : α → β) (earlier : List α) (a : α) : Option α :=
  earlier.find? fun other => property other == property a

/-- Items after a property of theirs, which is worked out once for each. -/
def keyed {α β : Type} (property : α → β) (items : List α) : List (β × α) :=
  items.map fun a => (property a, a)

/-- The items that clash, each after the item that it clashes with. -/
def clashes {α β : Type} [BEq β] (property : α → β) (items : List α) : List (α × α) :=
  inTurn (fun earlier a => (rival? Prod.fst earlier a).toList.map fun other => (other.2, a.2)) []
    (keyed property items)

namespace Register

/-! ### Bit fields and registers -/

/-- The diagnostics for bit fields whose names agree in snake case. -/
def fieldNameProblems (path : Path) (r : Register) : List Diagnostic :=
  (clashes Name.snake (r.namedFields.map (·.1))).map fun (first, second) =>
    .constraint .register path s!"bit fields '{first}' and '{second}' have the same name"

/-- The diagnostics for registers whose names agree in snake case. -/
def nameProblems (path : Path) (registers : List Register) : List Diagnostic :=
  (clashes Name.snake (registers.map Register.name)).map fun (first, second) =>
    .constraint .register path s!"registers '{first}' and '{second}' have the same name"

end Register

end RegisterMap
