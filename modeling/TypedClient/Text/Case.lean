import TypedClient.Text.CaseTable

/-! Letter case of the first character of a word, in the full mapping of Unicode. -/
namespace TypedClient.Text

def caseForms (runs : List CaseRun) (expansions : List (Nat × List Nat)) (c : Char) : List Char :=
  match expansions.lookup c.toNat with
  | some codes => codes.map Char.ofNat
  | none =>
    match runs.find? (·.covers c.toNat) with
    | some run => [Char.ofNat (c.toNat + run.shift).toNat]
    | none => [c]

/-- A character may become several in upper case. -/
def upperForms (c : Char) : List Char :=
  if c.toNat < 128 then [c.toUpper] else caseForms upperRuns upperExpansions c

def lowerForms (c : Char) : List Char :=
  if c.toNat < 128 then [c.toLower] else caseForms lowerRuns lowerExpansions c

def capitalize : List Char → List Char
  | [] => []
  | c :: rest => upperForms c ++ rest

def uncapitalize : List Char → List Char
  | [] => []
  | c :: rest => lowerForms c ++ rest

end TypedClient.Text
