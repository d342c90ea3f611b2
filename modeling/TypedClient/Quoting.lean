/-! String literals of the generated language. -/
namespace TypedClient.Quoting

def isKeyStart (c : Char) : Bool :=
  c.isAlpha || c == '_' || c == '$'

def isKeyPart (c : Char) : Bool :=
  c.isAlphanum || c == '_' || c == '$'

/-- Whether a property name cannot stand without quotes. -/
def needsQuotes (name : String) : Bool :=
  match name.toList with
  | [] => true
  | c :: rest => !isKeyStart c || !rest.all isKeyPart

def escapeChar (c : Char) : List Char :=
  if c == '\\' then ['\\', '\\'] else if c == '"' then ['\\', '"'] else [c]

def escape (text : String) : String :=
  String.ofList (text.toList.flatMap escapeChar)

def literal (text : String) : String :=
  "\"" ++ escape text ++ "\""

def propertyKey (name : String) : String :=
  if needsQuotes name then literal name else name

end TypedClient.Quoting
