import TypedClient.Render.Fetch

/-!
The client with hooks: a query gets a key function and a query hook, every other operation a mutation
hook. A query with a `prefer` header polls on an interval.
-/
namespace TypedClient.QueryHooks
open Fetch

def hooksImport : String :=
  "import \x7b useMutation, useQuery, type UseMutationOptions, type UseQueryOptions \x7d from " ++
    "\"@tanstack/react-query\";"

/-- In milliseconds. -/
def pollInterval : Nat := 1000

def isPolling (descriptor : Descriptor) : Bool :=
  descriptor.headerParams.any fun header => header.name.toLower == "prefer"

def keyName (descriptor : Descriptor) : String :=
  functionName descriptor ++ "Key"

def hookName (descriptor : Descriptor) : String :=
  "use" ++ Identifier.capitalized (functionName descriptor)

/-- Headers do not identify data. -/
def keyArguments (descriptor : Descriptor) : List Argument :=
  let headers := freeName descriptor "headers"
  (callArguments descriptor).filter fun argument => !(argument.name == headers)

def names (arguments : List Argument) : List String :=
  arguments.map (·.name)

def keyCall (descriptor : Descriptor) : Call :=
  ⟨keyName descriptor, names (keyArguments descriptor)⟩

def keyItems (descriptor : Descriptor) : List String :=
  Quoting.literal descriptor.path :: names (keyArguments descriptor)

def keyFunction (descriptor : Descriptor) : String :=
  "export const " ++ keyName descriptor ++ " = (" ++ argumentList (keyArguments descriptor) ++
    ") => [" ++ String.intercalate ", " (keyItems descriptor) ++ "] as const;\n\n"

def docLines (descriptor : Descriptor) : String :=
  if descriptor.doc.isEmpty then "" else descriptor.doc ++ "\n"

def queryOptions (descriptor : Descriptor) : Argument :=
  ⟨freeName descriptor "queryOptions",
    .named ("Omit<UseQueryOptions<" ++ descriptor.responseType.text ++ ", ApiError<" ++
      descriptor.errorType.text ++ ">>, \"queryKey\" | \"queryFn\">"),
    true⟩

def hookArguments (descriptor : Descriptor) : List Argument :=
  callArguments descriptor ++ [queryOptions descriptor]

/-- The hook passes its own arguments on. -/
def queryCall (descriptor : Descriptor) : Call :=
  ⟨functionName descriptor, names (callArguments descriptor)⟩

def queryHook (descriptor : Descriptor) : String :=
  keyFunction descriptor ++ docLines descriptor ++
    "export function " ++ hookName descriptor ++ "(" ++ argumentList (hookArguments descriptor) ++
    ") \x7b\n  return useQuery(\x7b\n    queryKey: " ++ (keyCall descriptor).text ++
    ",\n    queryFn: () => " ++ (queryCall descriptor).text ++ ",\n" ++
    (if isPolling descriptor then "    refetchInterval: " ++ toString pollInterval ++ ",\n" else "") ++
    "    ..." ++ freeName descriptor "queryOptions" ++ ",\n  \x7d);\n\x7d\n"

def variablesType (descriptor : Descriptor) : TypeExpr :=
  .object ((callArguments descriptor).map fun argument =>
    ⟨argument.name, argument.type, argument.optional, none⟩) none

def variablesText (descriptor : Descriptor) : String :=
  if (callArguments descriptor).isEmpty then "void" else (variablesType descriptor).text

/-- The hook passes on the properties of the variables. -/
def mutationCall (descriptor : Descriptor) : Call :=
  ⟨functionName descriptor, (names (callArguments descriptor)).map ("vars." ++ ·)⟩

def mutationFunction (descriptor : Descriptor) : String :=
  (if (callArguments descriptor).isEmpty then "() => " else "(vars) => ") ++
    (mutationCall descriptor).text

def mutationHook (descriptor : Descriptor) : String :=
  docLines descriptor ++
    "export function " ++ hookName descriptor ++ "(mutationOptions?: Omit<UseMutationOptions<" ++
    descriptor.responseType.text ++ ", ApiError<" ++ descriptor.errorType.text ++ ">, " ++
    variablesText descriptor ++ ">, \"mutationFn\">) \x7b\n  return useMutation(\x7b\n    mutationFn: " ++
    mutationFunction descriptor ++ ",\n    ...mutationOptions,\n  \x7d);\n\x7d\n"

def operation (descriptor : Descriptor) : String :=
  Fetch.operation descriptor ++ "\n" ++
    if descriptor.verb.isQuery then queryHook descriptor else mutationHook descriptor

def renderer : Renderer where
  operation := operation
  preamble := some (hooksImport ++ "\n\n" ++ Fetch.preamble)

end TypedClient.QueryHooks
