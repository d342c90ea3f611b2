import TypedClient.Render.Renderer

/-!
The plain client: one exported asynchronous function for each operation. Path parameters come first,
then body, query and headers, with required arguments before optional ones, and the request options
last.
-/
namespace TypedClient.Fetch

def preamble : String := String.intercalate "\n" [
  "export class ApiError<TBody = unknown> extends Error \x7b",
  "  status: number;",
  "  statusText: string;",
  "  body: TBody;",
  "",
  "  constructor(status: number, statusText: string, body: TBody) \x7b",
  "    super(`HTTP $\x7bstatus\x7d: $\x7bstatusText\x7d`);",
  "    this.name = \"ApiError\";",
  "    this.status = status;",
  "    this.statusText = statusText;",
  "    this.body = body;",
  "  \x7d",
  "\x7d",
  "",
  "async function readBody(res: Response): Promise<unknown> \x7b",
  "  const text = await res.text();",
  "  if (!text) return undefined;",
  "  try \x7b return JSON.parse(text); \x7d catch \x7b return text; \x7d",
  "\x7d",
  "",
  "function toQueryString(params?: object): string \x7b",
  "  if (!params) return \"\";",
  "  const searchParams = new URLSearchParams();",
  "  for (const [key, value] of Object.entries(params)) \x7b",
  "    if (value == null) continue;",
  "    if (Array.isArray(value)) \x7b",
  "      value.forEach((v) => searchParams.append(key, String(v)));",
  "    \x7d else \x7b",
  "      searchParams.set(key, String(value));",
  "    \x7d",
  "  \x7d",
  "  const queryString = searchParams.toString();",
  "  return queryString ? `?$\x7bqueryString\x7d` : \"\";",
  "\x7d"]

def functionName (descriptor : Descriptor) : String :=
  Identifier.ofName (Identifier.uncapitalized descriptor.name)

/-- Puts underscores in front of a name until it is not taken, at most as many as names are taken. -/
def freshen (taken : List String) : Nat → String → String
  | 0, name => name
  | steps + 1, name => if taken.contains name then freshen taken steps ("_" ++ name) else name

def pathIdentifiers (descriptor : Descriptor) : List String :=
  descriptor.allPathParams.map (·.identifier)

/-- The base name, with underscores in front until no path parameter has it. -/
def freeName (descriptor : Descriptor) (base : String) : String :=
  freshen (pathIdentifiers descriptor) (pathIdentifiers descriptor).length base

def headersType (descriptor : Descriptor) : TypeExpr :=
  .object (descriptor.headerParams.map fun header =>
    ⟨header.name, .scalar .string, !header.required, none⟩) none

def pathArguments (descriptor : Descriptor) : List Argument :=
  descriptor.allPathParams.map fun param => ⟨param.identifier, param.type, false⟩

def bodyArgument (descriptor : Descriptor) : List Argument :=
  if descriptor.hasBody then
    [⟨freeName descriptor "data", descriptor.bodyType, !descriptor.bodyRequired⟩]
  else []

def queryArgument (descriptor : Descriptor) : List Argument :=
  if descriptor.queryParamsType.isSome then
    [⟨freeName descriptor "params", descriptor.queryType, !descriptor.queryRequired⟩]
  else []

def headersArgument (descriptor : Descriptor) : List Argument :=
  if descriptor.headerParams.isEmpty then []
  else
    [⟨freeName descriptor "headers", headersType descriptor,
      !descriptor.headerParams.any (·.required)⟩]

/-- The arguments of a call without the request options, required ones first. -/
def callArguments (descriptor : Descriptor) : List Argument :=
  let rest :=
    bodyArgument descriptor ++ queryArgument descriptor ++ headersArgument descriptor
  pathArguments descriptor ++ rest.filter (!·.optional) ++ rest.filter (·.optional)

def escapeTemplate (text : String) : String :=
  String.ofList (text.toList.flatMap fun c => if c == '\x60' then ['\\', '\x60'] else [c])

def urlExpression (descriptor : Descriptor) : String :=
  let trailing := (descriptor.trailingId.map fun id => "$\x7b" ++ id.identifier ++ "\x7d").getD ""
  let query :=
    if descriptor.queryParamsType.isSome then
      "$\x7btoQueryString(" ++ freeName descriptor "params" ++ ")\x7d"
    else ""
  "`" ++ escapeTemplate descriptor.route ++ trailing ++ query ++ "`"

def headerParts (descriptor : Descriptor) : List String :=
  (if descriptor.hasBody then ["\"Content-Type\": \"application/json\""] else []) ++
    (if descriptor.headerParams.isEmpty then []
      else ["..." ++ freeName descriptor "headers"])

def requestLines (descriptor : Descriptor) : List String :=
  let options := freeName descriptor "options"
  let headers := headerParts descriptor
  ["..." ++ options ++ ",", "method: \"" ++ descriptor.verb.text ++ "\","] ++
    (if headers.isEmpty then []
      else ["headers: \x7b " ++
        String.intercalate ", " (headers ++ ["..." ++ options ++ "?.headers"]) ++ " \x7d,"]) ++
    (if descriptor.hasBody then
      ["body: JSON.stringify(" ++ freeName descriptor "data" ++ "),"] else [])

def bodyLines (descriptor : Descriptor) : List String :=
  let res := freeName descriptor "res"
  let error := descriptor.errorType.text
  ["const " ++ res ++ " = await fetch(" ++ urlExpression descriptor ++ ", \x7b"] ++
    (requestLines descriptor).map ("  " ++ ·) ++
    ["\x7d);",
      "if (!" ++ res ++ ".ok) \x7b",
      "  throw new ApiError<" ++ error ++ ">(" ++ res ++ ".status, " ++ res ++
        ".statusText, (await readBody(" ++ res ++ ")) as " ++ error ++ ");",
      "\x7d",
      if descriptor.responseType.same (.scalar .void) then "return;"
      else "return (await readBody(" ++ res ++ ")) as " ++ descriptor.responseType.text ++ ";"]

def optionsArgument (descriptor : Descriptor) : Argument :=
  ⟨freeName descriptor "options", .named "RequestInit", true⟩

def function (descriptor : Descriptor) : FunctionDecl where
  doc := descriptor.doc
  name := functionName descriptor
  arguments := callArguments descriptor ++ [optionsArgument descriptor]
  returns := some ("Promise<" ++ descriptor.responseType.text ++ ">")
  body := bodyLines descriptor
  async := true

def operation (descriptor : Descriptor) : String :=
  (function descriptor).text

def operations (descriptors : List Descriptor) : String :=
  String.intercalate "\n" (descriptors.map operation) ++ "\nexport const api = \x7b\n" ++
    String.join (descriptors.map fun descriptor => "  " ++ functionName descriptor ++ ",\n") ++
    "\x7d;\n"

def renderer : Renderer where
  operation := operation
  operations := operations
  preamble := some preamble

end TypedClient.Fetch
