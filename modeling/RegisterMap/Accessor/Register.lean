import RegisterMap.Accessor.Field

/-!
# The classes of a register

A register has a class for the values that are read from it and one for those that are written to
it, a protocol for its backend, and the accessor.
-/

namespace RegisterMap.Accessor

namespace RegisterNames

def width (r : RegisterNames) : Nat := r.register.size.bits

/-- Whether the register can be written from scratch, which would have to make up the values of
reserved bit fields. -/
def hasWrite (r : RegisterNames) : Bool := r.register.isWritable && !r.register.hasReserved

/-- Whether the value of the register can be changed. -/
def hasModify (r : RegisterNames) : Bool := r.register.isReadable && r.register.isWritable

/-- Whether there are values to be written. -/
def hasWriteValue (r : RegisterNames) : Bool := r.hasWrite || r.hasModify

end RegisterNames

/-! ### Values -/

/-- The methods for the bit fields of a value. -/
def fieldMethods (r : RegisterNames) (result body : FieldNames → String) :
    Except Error (List Method) :=
  r.fields.mapM fun f => do
    return ⟨false, f.method, ["self"], result f, ← docstring f.rangeDoc, [s!"return {body f}"]⟩

/-- The method that gives the number of a value. -/
def rawBits : Method := .simple "raw_bits" [] "int" ["return self._raw"]

/-- The class of the values that are read from a register. -/
def readValue (r : RegisterNames) : Except Error Class := do
  let doc ← docstring s!"Value read from register {r.register.name}."
  let fields ← fieldMethods r (·.readClass) fun f =>
    s!"{f.readClass}.from_raw({f.constant}.get(self._raw))"
  let shown := ("raw=" ++ braced "self._raw:#x") ::
    r.fields.map fun f => s!"{f.method}=" ++ braced s!"self.{f.method}()!r"
  return {
    name := r.readClass
    bases := []
    doc
    sections :=
      [[.constant (.plain "__slots__" "(\"_raw\",)")]] ++
      sectionsOf (
        [.simple "__init__" ["raw: int"] "None" ["self._raw = raw"], rawBits] ++
        fields ++
        [.simple "__eq__" ["other: object"] "bool"
          [s!"return isinstance(other, {r.readClass}) and other._raw == self._raw"],
         .simple "__hash__" [] "int" ["return hash(self._raw)"],
         .simple "__repr__" [] "str"
          [s!"return f\"{r.register.name}(" ++ String.intercalate ", " shown ++ ")\""]]) }

/-- The class of the values that are written to a register. -/
def writeValue (r : RegisterNames) : Except Error Class := do
  let doc ← docstring s!"Value written to register {r.register.name}."
  let fields ← fieldMethods r (·.writeClass) fun f => s!"{f.writeClass}(self)"
  return {
    name := r.writeClass
    bases := []
    doc
    sections :=
      [[.constant (.plain "__slots__" "(\"_raw\",)")]] ++
      sectionsOf (
        [.simple "__init__" ["raw: int = 0"] "None" ["self._raw = raw"], rawBits,
         .simple "set_raw_bits" ["raw: int"] r.writeClass
          [s!"self._raw = raw & {Numeral.hex r.register.size.maxValue}", "return self"]] ++
        fields ++
        [.simple "__repr__" [] "str"
          [s!"return f\"{r.writeClass}(raw=" ++ braced "self._raw:#x" ++ ")\""]]) }

/-! ### Access -/

/-- The protocol of the backend of a register. -/
def ioProtocol (r : RegisterNames) : Except Error Class := do
  let doc ← docstring s!"Backend able to access register {r.register.name}."
  return {
    name := r.ioClass
    bases := (accesses r.register).map (fun (t, _) => s!"{t.protocol}[{r.groupClass}]") ++
      ["Protocol"]
    doc
    sections := [] }

/-- The text of a location in code. -/
def locationCode (l : Location) : String :=
  match l.kind with
  | .index => toString l.value
  | _ => Numeral.hex l.value

/-- The constants of the accessor of a register. -/
def accessorConstants (r : RegisterNames) : List Constant :=
  let capabilities := String.intercalate ", " r.capabilities
  [.plain "NAME" (Text.quoted r.register.name), .plain "GROUP" r.groupClass,
   .plain "WIDTH" (toString r.width)] ++
  ((accesses r.register).map fun (t, location) => .plain t.constant (locationCode location)) ++
  (r.register.slot.toList.map fun slot => .plain "SLOT_INDEX" (toString slot)) ++
  [.plain "CAPABILITIES" s!"({capabilities},)"]

/-- A method of an accessor that lets a function build a value and writes it. -/
def writing (r : RegisterNames) (name summary start : String) : Except Error Method := do
  return {
    isClassMethod := false
    name
    parameters := ["self", s!"f: Callable[[{r.writeClass}], Any]"]
    result := "None"
    doc := ← docstring summary
    body := [s!"value = {r.writeClass}({start})", "f(value)", "self._write_raw(value.raw_bits())"] }

def accessorClass (r : RegisterNames) : Except Error Class := do
  let summary := (descriptionText? r.register.description).getD s!"Register {r.register.name}."
  let doc ← docstring (summary ++
    s!"\n\nAccess: {r.register.access}, width: {r.width} bits, {r.register.readLocation}.")
  let write ← writing r "write" "Write a value built by f, starting from zero." ""
  let modify ← writing r "modify" "Read the register, let f change the value and write it back."
    "self._read_raw()"
  return {
    name := r.accessor
    bases := (accesses r.register).map fun (t, _) => t.mixin
    doc
    sections :=
      [(accessorConstants r).map .constant] ++
      sectionsOf (
        [.simple "__init__" [s!"io: {r.ioClass}"] "None"
          ["require_capabilities(io, self.NAME, self.CAPABILITIES)", "self._io = io"]] ++
        (if r.register.isReadable then
          [.simple "read" [] r.readClass [s!"return {r.readClass}(self._read_raw())"]]
        else []) ++
        (if r.hasWrite then [write] else []) ++
        (if r.hasModify then [modify] else [])) }

/-! ### All items -/

/-- The constants for the ranges of the bit fields, if there are any. -/
def rangeItems (r : RegisterNames) : List Item :=
  if r.fields.isEmpty then [] else [.constants (r.fields.map (·.rangeConstant r.width))]

/-- The classes for the values that are read from a register. -/
def readItems (r : RegisterNames) : Except Error (List Class) := do
  let fields ← r.fields.mapM (readClass? r)
  let value ← if r.register.isReadable then some <$> readValue r else pure none
  return fields.reduceOption ++ value.toList

/-- The classes for the values that are written to a register. -/
def writeItems (r : RegisterNames) : Except Error (List Class) :=
  if r.hasWriteValue then do
    let proxies ← r.fields.mapM (writeProxy r)
    return proxies ++ [← writeValue r]
  else return []

/-- The items of a register, in order. -/
def registerItems (r : RegisterNames) : Except Error (List Item) := do
  let reading ← readItems r
  let writing ← writeItems r
  let io ← ioProtocol r
  let accessor ← accessorClass r
  return rangeItems r ++ (reading ++ writing ++ [io, accessor]).map .classDef

end RegisterMap.Accessor
