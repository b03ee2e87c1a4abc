import RegisterMap.Accessor.Class
import RegisterMap.Accessor.Docstring
import RegisterMap.Accessor.Naming
import RegisterMap.Text.Quoted

/-!
# The classes of a bit field

Reading a bit field gives a value of its read class. If every value has a name this is an
enumeration, and otherwise a wrapper around the number. Writing goes through a proxy with a setter
for each named value.
-/

namespace RegisterMap.Accessor

/-! ### Text -/

/-- An expression inside a format string. -/
def braced (expression : String) : String := "\x7b" ++ expression ++ "\x7d"

/-- The name of the class of an object, inside a format string. -/
def bracedTypeName : String := braced "type(self).__name__"

/-- A description that has a text. -/
def descriptionText? (description : Option String) : Option String :=
  description.filter (!·.isEmpty)

/-- A text as a comment on one line. -/
def comment (text : String) : String :=
  "# " ++ String.intercalate " " ((Text.fields text.toList).map String.ofList)

namespace FieldNames

/-- What the documentation says of the place of a bit field. -/
def rangeDoc (f : FieldNames) : String :=
  let r := f.field.range
  let place := if r.isSingle then s!"Bit {r.msb}" else s!"Bits {r.msb}:{r.lsb}"
  match descriptionText? f.field.description with
  | some description => s!"{place} - {description}"
  | none => place

/-- The constant for the range of a bit field in a register of the given width. -/
def rangeConstant (f : FieldNames) (width : Nat) : Constant :=
  .plain f.constant s!"Bitfield({f.field.range.msb}, {f.field.range.lsb}, {width})"

end FieldNames

/-! ### Reading -/

def valueConstant (v : EnumValue) : Constant :=
  ⟨(descriptionText? v.description).map comment, Name.constant v.name, none, toString v.value, []⟩

/-- Methods that every read class of a single bit has. -/
def bitMethods : List Method :=
  [.simple "bit" [] "bool" ["return self.to_raw() != 0"],
   .simple "bit_is_set" [] "bool" ["return self.to_raw() != 0"],
   .simple "bit_is_clear" [] "bool" ["return self.to_raw() == 0"]]

/-- The method that makes a value of a read class from a number. -/
def fromRaw (className result : String) : Method :=
  ⟨true, "from_raw", ["cls", "value: int"], className, [], [s!"return {result}"]⟩

/-- The methods that give the number of a value, from an expression for it. -/
def rawMethods (expression : String) : List Method :=
  [.simple "to_raw" [] "int" [s!"return {expression}"],
   .simple "bits" [] "int" [s!"return {expression}"]]

/-- The method that compares a value with a named value. -/
def comparator (v : EnumValue) (expression : String) : Method :=
  .simple s!"is_{Name.snake v.name}" [] "bool" [s!"return {expression}"]

/-- Methods as sections of their own. -/
def sectionsOf (methods : List Method) : List (List Member) := methods.map fun m => [.method m]

/-- Whether the values of an enumeration are all the numbers up to a maximum. -/
def definesAll (e : RegisterEnum) (maxValue : Nat) : Bool :=
  e.values.length == maxValue + 1 &&
    (e.values.map (·.value)).mergeSort == (List.range (maxValue + 1)).map Int.ofNat

/-- The read class of a bit field of which every value has a name. -/
def closedClass (r : RegisterNames) (f : FieldNames) (e : RegisterEnum) : Except Error Class := do
  let maxValue ← f.field.range.maxValue.mapError .range
  if !definesAll e maxValue then throw (.incompleteEnum e.name r.register.name)
  let doc ← docstring ((descriptionText? e.description).getD s!"Values of bit field {f.name}.")
  let named := bracedTypeName ++ "." ++ braced "self.name"
  return {
    name := f.readClass
    bases := ["enum.IntEnum"]
    doc
    sections :=
      [e.values.map fun v => .constant (valueConstant v)] ++
      sectionsOf ([fromRaw f.readClass "cls(value)"] ++ rawMethods "int(self)" ++
        (if f.isSingle then bitMethods else []) ++
        (e.values.map fun v =>
          comparator v s!"self is {f.readClass}.{Name.constant v.name}") ++
        [.simple "__repr__" [] "str" [s!"return f\"{named}\""]]) }

/-- The named values by number, each with the last name that it has. -/
def namesByValue (values : List EnumValue) : List (Int × String) :=
  values.foldl insert []
where
  /-- Give a number a name, in its place if it has one already. -/
  insert (names : List (Int × String)) (v : EnumValue) : List (Int × String) :=
    let name := Name.constant v.name
    if names.any (·.1 == v.value) then
      names.map fun (n, other) => if n == v.value then (n, name) else (n, other)
    else names ++ [(v.value, name)]

/-- The lines that show a value, by its name if it has one. -/
def openForm (values : List EnumValue) : Code :=
  let entries := (namesByValue values).map fun (n, name) => s!"{n}: {Text.quoted name}"
  let lookUp : Code :=
    if values.isEmpty then []
    else
      ["names = " ++ braced (String.intercalate ", " entries),
       "name = names.get(self.to_raw())"] ++
      .block "if name is not None:"
        [s!"return f\"{bracedTypeName}." ++ braced "name" ++ "\""]
  lookUp ++ [s!"return f\"{bracedTypeName}(" ++ braced "self.to_raw():#x" ++ ")\""]

/-- The read class of a bit field with values that have no name. -/
def openClass (f : FieldNames) : Except Error Class := do
  let description := descriptionText? (f.enum?.bind (·.description))
  let doc ← docstring (description.getD s!"Value of bit field {f.name}.")
  let valueType := if f.isSingle then "bool" else "int"
  let converted := if f.isSingle then "cls(value != 0)" else "cls(value)"
  return {
    name := f.readClass
    bases := []
    doc
    sections :=
      [[.constant (.plain "__slots__" "(\"_value\",)")]] ++
      (f.enum?.toList.map fun e => e.values.map fun v => .constant (valueConstant v)) ++
      sectionsOf ([.simple "__init__" [s!"value: {valueType}"] "None" ["self._value = value"],
          fromRaw f.readClass converted] ++ rawMethods "int(self._value)" ++
        (if f.isSingle then bitMethods else []) ++
        (f.values.map fun v => comparator v s!"self.to_raw() == {v.value}") ++
        [.simple "__eq__" ["other: object"] "bool"
          [s!"return isinstance(other, {f.readClass}) and other.to_raw() == self.to_raw()"],
         .simple "__hash__" [] "int" ["return hash(self.to_raw())"],
         .simple "__repr__" [] "str" (openForm f.values)]) }

/-- The read class of a bit field, which a register needs if it can be read. One with a name for
every value is made in any case, because setters take its values. -/
def readClass? (r : RegisterNames) (f : FieldNames) : Except Error (Option Class) :=
  match f.enum? with
  | some e =>
    if e.isComplete then some <$> closedClass r f e
    else if r.register.isReadable then some <$> openClass f
    else return none
  | none => if r.register.isReadable then some <$> openClass f else return none

/-! ### Writing -/

/-- The methods of a write proxy that setters must not override. -/
def proxyMethods : List String := ["bits", "bit", "set_bit", "clear_bit", "variant"]

def setter (r : RegisterNames) (v : EnumValue) : Except Error Method := do
  let doc ← docstring (v.description.getD "")
  return {
    isClassMethod := false
    name := avoid proxyMethods (Name.snake v.name)
    parameters := ["self"]
    result := r.writeClass
    doc
    body := [s!"return self.bits({v.value})"] }

/-- The write proxy of a bit field. -/
def writeProxy (r : RegisterNames) (f : FieldNames) : Except Error Class := do
  let doc ← docstring f.rangeDoc
  let setters ← f.values.mapM (setter r)
  let setting (name : String) (parameters : List String) (value : String) : Method :=
    .simple name parameters r.writeClass [s!"return self.bits({value})"]
  return {
    name := f.writeClass
    bases := []
    doc
    sections :=
      [[.constant (.plain "__slots__" "(\"_w\",)")]] ++
      sectionsOf (
        [.simple "__init__" [s!"w: {r.writeClass}"] "None" ["self._w = w"],
         .simple "bits" ["value: int"] r.writeClass
          [s!"return self._w.set_raw_bits({f.constant}.set(self._w.raw_bits(), value))"]] ++
        (if f.isSingle then
          [setting "bit" ["value: bool"] "1 if value else 0", setting "set_bit" [] "1",
           setting "clear_bit" [] "0"]
        else []) ++
        (if f.isClosed then [setting "variant" [s!"value: {f.readClass}"] "value.to_raw()"]
        else []) ++
        setters) }

end RegisterMap.Accessor
