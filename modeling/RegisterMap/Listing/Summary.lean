import RegisterMap.BitRange.Text
import RegisterMap.Listing.Grid
import RegisterMap.Model.Register

/-!
# Summaries of documents

A summary shows what a document says of itself and a grid of its registers, and on request a grid
of the bit fields of each register.
-/

namespace RegisterMap.Listing

/-- A text, or else a replacement for one that is absent or empty. -/
def textOr (replacement : String) (text : Option String) : String :=
  (text.filter (!·.isEmpty)).getD replacement

/-! ### Registers -/

/-- The location of a register, with both addresses where they differ. -/
def locationCell (r : Register) : String :=
  if r.isSplit then s!"{r.readLocation} / {Numeral.hex r.writeLocation.value}"
  else r.readLocation.text

/-- The row of a register of a group. -/
def registerRow (group : Option String) (r : Register) : List String :=
  [textOr "-" group, r.name, locationCell r, r.access.text, toString r.size,
   toString r.namedFields.length]

def registerGrid (isHeaderShown : Bool) (m : Model) : Grid where
  names := ["Group", "Register", "Location", "Access", "Size", "Fields"]
  isHeaderShown
  rows := m.groups.flatMap fun (group, registers) => registers.map (registerRow group)

/-! ### Bit fields -/

def fieldRow (r : Register) (f : BitField) : List String :=
  [f.range.text, textOr "(reserved)" f.name, ((r.enumFor? f).map (·.name)).getD "-",
   textOr "" f.description]

/-- The bit fields of a register from the highest to the lowest. -/
def fieldGrid (isHeaderShown : Bool) (r : Register) : Grid where
  names := ["Bits", "Name", "Enum", "Description"]
  isHeaderShown
  rows := (r.bitFields.mergeSort fun f g => g.range.le f.range).map (fieldRow r)

/-! ### Documents -/

def descriptionLines (d : Description) : List String :=
  [s!"Name:         {d.name}"] ++
    ((d.description.filter (!·.isEmpty)).toList.map fun text => s!"Description:  {text}") ++
    [s!"Version:      {d.version}",
     "Extension:    " ++ (d.extension.map Extension.text).getD "-",
     s!"Index size:   {d.indexSize}",
     s!"Address size: {d.addressSizeText}",
     "Registers:"]

/-- The lines on the bit fields of a register, after an empty one. -/
def fieldLines (isHeaderShown : Bool) (r : Register) : List String :=
  [s!"\n{r.name}:", (fieldGrid isHeaderShown r).text]

def summary (isHeaderShown withFields : Bool) (m : Model) : String :=
  let lines := descriptionLines m.description ++ [(registerGrid isHeaderShown m).text] ++
    if withFields then m.allRegisters.flatMap (fieldLines isHeaderShown) else []
  String.join (lines.map (· ++ "\n"))

end RegisterMap.Listing
