import RegisterMap.Accessor.Register
import RegisterMap.Diagnostic.Report

/-!
# Generated modules

The module for a model consists of a head, the preamble, and for each group a marker class, the
items of its registers and a container of their accessors.
-/

namespace RegisterMap.Accessor

/-! ### Groups -/

def markerClass (g : GroupNames) : Except Error Class := do
  let doc ← docstring s!"Marker of the registers of {g.title}."
  return { name := g.marker, bases := ["RegisterGroup"], doc, sections := [] }

/-- The methods of a container that getters must not override. -/
def containerMethods : List String := ["debug_registers"]

/-- The getter of a register in the container of its group. -/
def getterName (r : RegisterNames) : String :=
  avoid containerMethods (Name.snake r.register.name)

/-- The capabilities of a group as a constant of its container. -/
def capabilitiesConstant (g : GroupNames) : Constant :=
  let annotation := some "FrozenSet[Capability]"
  if g.capabilities.isEmpty then ⟨none, "CAPABILITIES", annotation, "frozenset()", []⟩
  else
    ⟨none, "CAPABILITIES", annotation, "frozenset([",
      Code.indent (g.capabilities.map (· ++ ",")) ++ ["])"]⟩

/-- The lines that show every register of a group that can be read. -/
def showingCode (g : GroupNames) : Code :=
  let readable := g.registers.filter (·.register.isReadable)
  if readable.isEmpty then ["pass"]
  else readable.map fun r => s!"f(repr(self.{getterName r}().read()))"

/-- The container of the accessors of a group. -/
def containerClass (g : GroupNames) : Except Error Class := do
  let doc ← docstring s!"Accessors for every register of {g.title}."
  let showing : Method := {
    isClassMethod := false
    name := "debug_registers"
    parameters := ["self", "f: Callable[[str], Any]"]
    result := "None"
    doc := ← docstring "Read every readable register and pass its decoded value to f."
    body := showingCode g }
  return {
    name := g.container
    bases := []
    doc
    sections :=
      [[.constant (.plain "GROUP" g.marker), .constant (capabilitiesConstant g)]] ++
      sectionsOf (
        [.simple "__init__" ["io: Any"] "None" ["self._io = io"]] ++
        (g.registers.map fun r =>
          .simple (getterName r) [] r.accessor [s!"return {r.accessor}(self._io)"]) ++
        [showing]) }

/-- The items of a group, in order. -/
def groupItems (g : GroupNames) : Except Error (List Item) := do
  let marker ← markerClass g
  let registers ← g.registers.mapM registerItems
  let container ← containerClass g
  return [.classDef marker] ++ registers.flatten ++ [.classDef container]

/-- The items of all groups of a model, in order. -/
def modelItems (m : Model) : Except Error (List Item) :=
  return (← (nameGroups m).mapM groupItems).flatten

/-! ### The head -/

/-- What the documentation of a module says. -/
def moduleSummary (d : Description) (moduleName : String) : String :=
  let summary := s!"{moduleName}: register access API for {d.name}."
  match descriptionText? d.description with
  | some description => s!"{summary}\n\n{description}"
  | none => summary

/-- The constants of a module that do not belong to a register. -/
def headConstants (d : Description) : Code :=
  [s!"DESCRIPTION_VERSION = {Text.quoted d.version.text}", s!"INDEX_SIZE = {d.indexSize}"] ++
    match d.addressSize with
    | none => ["# Native pointer width.", "ADDRESS_SIZE = None"]
    | some size => [s!"ADDRESS_SIZE = {size}"]

/-- The lines before the preamble. -/
def headCode (d : Description) (moduleName : String) : Except Error Code := do
  let doc ← docstring (moduleSummary d moduleName)
  return [s!"# Generated by regdesc from register description '{d.name}'. Do not edit."] ++ doc ++
    .blank 1 ++ Preamble.imports ++ .blank 1 ++ headConstants d ++ .blank 2

/-! ### The module -/

/-- The text of the module for a model. -/
def generate (m : Model) (moduleName : String) : Except Error String := do
  let head ← headCode m.description moduleName
  let items ← modelItems m
  return Code.text (head ++ Preamble.code ++ items.flatMap Item.code)

/-- What is reached while the module for a model is generated. -/
def milestones (m : Model) (moduleName : String) : Report :=
  .milestone (.module moduleName m.description.name) ::
    (nameGroups m).flatMap fun g =>
      .milestone (.group g.title g.registers.length) ::
        g.registers.map fun r => .milestone (.accessor r.register.name r.accessor)

end RegisterMap.Accessor
