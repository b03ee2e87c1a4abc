/-!
# Writing texts for a TOML document

A text is written between double quotes, with escapes for backslashes, quotes, line feeds and
tabs.
-/

namespace RegisterMap.Toml

/-- A character as it is written between double quotes. -/
def escapeChar : Char → List Char
  | '\\' => ['\\', '\\']
  | '"' => ['\\', '"']
  | '\n' => ['\\', 'n']
  | '\t' => ['\\', 't']
  | c => [c]

def quoted (text : String) : String :=
  String.ofList ('"' :: text.toList.flatMap escapeChar ++ ['"'])

end RegisterMap.Toml
