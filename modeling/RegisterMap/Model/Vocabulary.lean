import RegisterMap.Bits
import RegisterMap.Numeral

/-!
# The vocabulary of register descriptions

The sizes, access modes, versions and extensions that a description may name, and the ways of
locating a register.
-/

namespace RegisterMap

/-! ### Sizes -/

/-- The width of a register or of a location, in bits. -/
inductive RegisterSize where
  | size8
  | size16
  | size32
  | size64
  deriving Repr, DecidableEq

namespace RegisterSize

def all : List RegisterSize := [size8, size16, size32, size64]

def bits : RegisterSize → Nat
  | size8 => 8
  | size16 => 16
  | size32 => 32
  | size64 => 64

/-- The largest unsigned number of this size. -/
def maxValue (s : RegisterSize) : Nat := Bits.ones s.bits

/-- The size with a number of bits. -/
def ofBits? (bits : Int) : Option RegisterSize := all.find? fun s => (s.bits : Int) == bits

instance : ToString RegisterSize := ⟨fun s => toString s.bits⟩

end RegisterSize

/-! ### Access modes -/

/-- The directions in which a register can be accessed. -/
inductive AccessMode where
  | read
  | write
  | readWrite
  deriving Repr, DecidableEq

namespace AccessMode

def all : List AccessMode := [read, write, readWrite]

def text : AccessMode → String
  | read => "r"
  | write => "w"
  | readWrite => "rw"

def ofText? (text : String) : Option AccessMode := all.find? (·.text == text)

/-- Whether registers of this mode can be read. -/
def isReadable (m : AccessMode) : Bool := m != write

/-- Whether registers of this mode can be written. -/
def isWritable (m : AccessMode) : Bool := m != read

instance : ToString AccessMode := ⟨text⟩

end AccessMode

/-! ### Versions and extensions -/

inductive SpecVersion where
  | version01
  deriving Repr, DecidableEq

namespace SpecVersion

def text : SpecVersion → String
  | version01 => "0.1"

def ofText? (text : String) : Option SpecVersion := [version01].find? (·.text == text)

instance : ToString SpecVersion := ⟨text⟩

end SpecVersion

/-- Extensions of addressing. Under `vga` a register can have separate read and write addresses,
given by a template, and a slot index beside its address. -/
inductive Extension where
  | vga
  deriving Repr, DecidableEq

namespace Extension

def text : Extension → String
  | vga => "vga"

def ofText? (text : String) : Option Extension := [vga].find? (·.text == text)

instance : ToString Extension := ⟨text⟩

end Extension

/-! ### Locations -/

/-- The mechanisms by which a register is addressed. -/
inductive LocationKind where
  | index
  | relative
  | absolute
  deriving Repr, DecidableEq

namespace LocationKind

/-- The document key that gives a location of this kind. -/
def key : LocationKind → String
  | index => "index"
  | relative => "relative_address"
  | absolute => "absolute_address"

end LocationKind

/-- Where a register is found. -/
structure Location where
  kind : LocationKind
  value : Int
  deriving Repr, DecidableEq

namespace Location

/-- The text of a location. Addresses are hexadecimal. -/
def text (l : Location) : String :=
  match l.kind with
  | .index => s!"index {l.value}"
  | .relative => s!"relative address {Numeral.hex l.value}"
  | .absolute => s!"absolute address {Numeral.hex l.value}"

instance : ToString Location := ⟨text⟩

end Location

end RegisterMap
