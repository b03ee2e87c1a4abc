import RegisterMap.Accessor.Code
import RegisterMap.Accessor.Trait

/-!
# The preamble of a generated module

Every generated module starts with the same imports and the same types: bit fields, groups,
capabilities, and for each location trait a protocol and a class from which accessors inherit.
-/

namespace RegisterMap.Accessor.Preamble

/-! ### Fixed parts -/

def imports : Code :=
  ["from __future__ import annotations",
   "",
   "import enum",
   "from typing import (",
   "    Any,",
   "    Callable,",
   "    ClassVar,",
   "    FrozenSet,",
   "    Iterable,",
   "    NamedTuple,",
   "    Protocol,",
   "    Type,",
   "    TypeVar,",
   ")"]

/-- The types that do not depend on a location trait. -/
def types : Code :=
  ["class Bitfield:",
   "    \"\"\"Contiguous bit range of a register.\"\"\"",
   "",
   "    __slots__ = (\"msb\", \"lsb\", \"register_width\")",
   "",
   "    def __init__(self, msb: int, lsb: int, register_width: int) -> None:",
   "        self.msb = msb",
   "        self.lsb = lsb",
   "        self.register_width = register_width",
   "",
   "    @property",
   "    def width(self) -> int:",
   "        return self.msb - self.lsb + 1",
   "",
   "    @property",
   "    def max_value(self) -> int:",
   "        return (1 << self.width) - 1",
   "",
   "    @property",
   "    def mask(self) -> int:",
   "        return self.max_value << self.lsb",
   "",
   "    def get(self, raw: int) -> int:",
   "        \"\"\"Extract the field value from a raw register value.\"\"\"",
   "        return (raw & self.mask) >> self.lsb",
   "",
   "    def set(self, raw: int, value: int) -> int:",
   "        \"\"\"Return raw with the field replaced by value.\"\"\"",
   "        register_mask = (1 << self.register_width) - 1",
   "        return ((raw & ~self.mask) | ((value << self.lsb) & self.mask)) & register_mask",
   "",
   "    def __repr__(self) -> str:",
   "        if self.msb == self.lsb:",
   "            return f\"Bitfield(\x7bself.msb\x7d)\"",
   "        return f\"Bitfield(\x7bself.msb\x7d:\x7bself.lsb\x7d)\"",
   "",
   "",
   "class RegisterGroup:",
   "    \"\"\"Base class of the group marker types.",
   "",
   "    Every I/O call passes the marker of the register's group so that a backend wired for one",
   "    group is never handed another group's registers.",
   "    \"\"\"",
   "",
   "",
   "class LocationKind(enum.Enum):",
   "    INDEX = \"index\"",
   "    RELATIVE = \"relative_address\"",
   "    ABSOLUTE = \"absolute_address\"",
   "",
   "",
   "class Direction(enum.Enum):",
   "    READ = \"read\"",
   "    WRITE = \"write\"",
   "",
   "",
   "class Capability(NamedTuple):",
   "    \"\"\"One access path a backend provides: group, location kind, direction and width.\"\"\"",
   "",
   "    group: Type[RegisterGroup]",
   "    kind: LocationKind",
   "    direction: Direction",
   "    width: int",
   "",
   "    def __str__(self) -> str:",
   "        return f\"\x7bself.group.__name__\x7d \x7bself.kind.value\x7d " ++
     "\x7bself.direction.value\x7d u\x7bself.width\x7d\"",
   "",
   "",
   "def require_capabilities(io: object, owner: str, required: Iterable[Capability]) -> None:",
   "    \"\"\"Check that io declares every capability in required.",
   "",
   "    Backends declare what they support in a CAPABILITIES collection of Capability values.",
   "    \"\"\"",
   "    provided = getattr(io, \"CAPABILITIES\", None)",
   "    if provided is None:",
   "        raise TypeError(f\"\x7btype(io).__name__\x7d does not declare CAPABILITIES\")",
   "    missing = [c for c in required if c not in provided]",
   "    if missing:",
   "        names = \", \".join(str(c) for c in missing)",
   "        raise TypeError(f\"\x7btype(io).__name__\x7d cannot access \x7bowner\x7d, " ++
     "missing capabilities: \x7bnames\x7d\")",
   "",
   "",
   "GroupT = TypeVar(\"GroupT\", bound=RegisterGroup, contravariant=True)"]

/-! ### Traits -/

/-- The parameters of the method of a backend, after those of every method. -/
def locationParameters : String := "self, group: Type[GroupT], location: int, width: int"

def protocol (t : Trait) : Code :=
  let signature := match t.direction with
    | .read => s!"def {t.method}({locationParameters}) -> int: ..."
    | .write => s!"def {t.method}({locationParameters}, value: int) -> None: ..."
  .block s!"class {t.protocol}(Protocol[GroupT]):" [signature]

/-- The method with which an accessor inherits a trait. -/
def forwarding (t : Trait) : Code :=
  let arguments := s!"self.GROUP, self.{t.constant}, self.WIDTH"
  match t.direction with
  | .read => .block "def _read_raw(self) -> int:" [s!"return self._io.{t.method}({arguments})"]
  | .write =>
    .block "def _write_raw(self, value: int) -> None:" [s!"self._io.{t.method}({arguments}, value)"]

/-- The class from which an accessor inherits a trait. -/
def mixin (t : Trait) : Code :=
  .block s!"class {t.mixin}:"
    (["GROUP: ClassVar[Type[RegisterGroup]]", "WIDTH: ClassVar[int]",
      s!"{t.constant}: ClassVar[int]", "_io: Any", ""] ++ forwarding t)

/-! ### The whole -/

def code : Code :=
  types ++ Trait.all.flatMap (fun t => .blank 2 ++ protocol t) ++
    Trait.all.flatMap fun t => .blank 2 ++ mixin t

/-- The names that the imports and the preamble define, and the constants before it. -/
def names : List String :=
  ["annotations", "enum", "Any", "Callable", "ClassVar", "FrozenSet", "Iterable", "NamedTuple",
   "Protocol", "Type", "TypeVar", "Bitfield", "RegisterGroup", "LocationKind", "Direction",
   "Capability", "require_capabilities", "GroupT", "DESCRIPTION_VERSION", "INDEX_SIZE",
   "ADDRESS_SIZE"] ++ Trait.all.map Trait.protocol ++ Trait.all.map Trait.mixin

end RegisterMap.Accessor.Preamble
