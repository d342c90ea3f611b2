import TypedClient.Proofs.Render.FreeName
import TypedClient.Render.QueryHooks

/-!
Signatures and calls line up. If the path identifiers of an operation are distinct, so are the parameters
of each generated function, required ones before optional ones, and what a hook passes on by position is
what the parameter at that position declares.
-/
namespace TypedClient
open Fetch QueryHooks

/-! ### Parameters and calls -/

def InOrder (arguments : List Argument) : Prop :=
  arguments.Pairwise fun first later => first.optional = true → later.optional = true

theorem inOrder_append {required optional : List Argument}
    (first : ∀ argument ∈ required, argument.optional = false)
    (later : ∀ argument ∈ optional, argument.optional = true) : InOrder (required ++ optional) := by
  refine List.pairwise_append.mpr ⟨?_, ?_, ?_⟩
  · apply List.pairwise_of_forall_mem_list
    intro argument member _ _ optional
    rw [first argument member] at optional
    cases optional
  · exact List.pairwise_of_forall_mem_list fun _ _ argument member _ => later argument member
  · exact fun _ _ argument member _ => later argument member

/-- The parameter that a name stands for inside a function. -/
def named? (parameters : List Argument) (name : String) : Option Argument :=
  parameters.find? (·.name == name)

/-- The property that a name stands for behind a dot. -/
def TypeExpr.member? : TypeExpr → String → Option (Field TypeExpr)
  | .object fields _, name => fields.find? (·.name == name)
  | _, _ => none

theorem find?_of_nodup {α : Type} {key : α → String} {entries : List α}
    (distinct : (entries.map key).Nodup) {entry : α} (member : entry ∈ entries) :
    entries.find? (fun held => key held == key entry) = some entry := by
  induction entries with
  | nil => cases member
  | cons first rest ih =>
    rw [List.map_cons, List.nodup_cons] at distinct
    rcases List.mem_cons.mp member with rfl | later
    · rw [List.find?_cons_of_pos (by simp)]
    · have other : key first ≠ key entry := by
        intro same
        exact distinct.1 (same ▸ List.mem_map_of_mem later)
      rw [List.find?_cons_of_neg (by simpa using other)]
      exact ih distinct.2 later

theorem named?_of_mem {parameters : List Argument} (distinct : (names parameters).Nodup)
    {argument : Argument} (member : argument ∈ parameters) :
    named? parameters argument.name = some argument :=
  find?_of_nodup distinct member

theorem names_append (first later : List Argument) :
    names (first ++ later) = names first ++ names later :=
  List.map_append

/-! ### The arguments of an operation -/

namespace Fetch

variable (descriptor : Descriptor)

/-- The arguments beside the path parameters. -/
def fixedArguments : List Argument :=
  bodyArgument descriptor ++ queryArgument descriptor ++ headersArgument descriptor

theorem callArguments_perm :
    (callArguments descriptor).Perm (pathArguments descriptor ++ fixedArguments descriptor) := by
  have parted := List.filter_append_perm (fun argument : Argument => !argument.optional)
    (fixedArguments descriptor)
  simp only [Bool.not_not] at parted
  rw [callArguments, List.append_assoc]
  exact parted.append_left _

theorem callArguments_split : ∃ required optional,
    callArguments descriptor = required ++ optional ∧
      (∀ argument ∈ required, argument.optional = false) ∧
      ∀ argument ∈ optional, argument.optional = true := by
  refine ⟨_, _, rfl, ?_, ?_⟩
  · intro argument member
    rcases List.mem_append.mp member with path | fixed
    · obtain ⟨param, -, rfl⟩ := List.mem_map.mp path
      rfl
    · exact (Bool.not_eq_true' _).mp (List.mem_filter.mp fixed).2
  · intro argument member
    exact (List.mem_filter.mp member).2

theorem names_callArguments_perm : (names (callArguments descriptor)).Perm
    (names (pathArguments descriptor) ++ names (fixedArguments descriptor)) :=
  names_append _ _ ▸ (callArguments_perm descriptor).map Argument.name

theorem names_pathArguments : names (pathArguments descriptor) = pathIdentifiers descriptor := by
  rw [names, pathArguments, pathIdentifiers, List.map_map]
  rfl

theorem names_bodyArgument : names (bodyArgument descriptor) =
    if descriptor.hasBody then [freeName descriptor "data"] else [] := by
  unfold bodyArgument
  split <;> rfl

theorem names_queryArgument : names (queryArgument descriptor) =
    if descriptor.queryParamsType.isSome then [freeName descriptor "params"] else [] := by
  unfold queryArgument
  split <;> rfl

theorem names_headersArgument : names (headersArgument descriptor) =
    if descriptor.headerParams.isEmpty then [] else [freeName descriptor "headers"] := by
  unfold headersArgument
  split <;> rfl

theorem names_fixedArguments : names (fixedArguments descriptor) =
    names (bodyArgument descriptor) ++ names (queryArgument descriptor) ++
      names (headersArgument descriptor) := by
  rw [fixedArguments, names_append, names_append]

def fixedBases : List String :=
  ["data", "params", "headers"]

theorem names_fixedArguments_sublist :
    (names (fixedArguments descriptor)).Sublist (fixedBases.map (freeName descriptor)) := by
  have body : (names (bodyArgument descriptor)).Sublist [freeName descriptor "data"] := by
    rw [names_bodyArgument]
    split
    · exact .refl _
    · exact List.nil_sublist _
  have query : (names (queryArgument descriptor)).Sublist [freeName descriptor "params"] := by
    rw [names_queryArgument]
    split
    · exact .refl _
    · exact List.nil_sublist _
  have headers : (names (headersArgument descriptor)).Sublist [freeName descriptor "headers"] := by
    rw [names_headersArgument]
    split
    · exact List.nil_sublist _
    · exact .refl _
  rw [names_fixedArguments]
  exact (body.append query).append headers

/-- Path identifiers, fixed arguments and further free names are all distinct. -/
theorem nodup_names_append {descriptor : Descriptor}
    (distinct : (pathIdentifiers descriptor).Nodup) (further : List String)
    (bases : (fixedBases ++ further).Nodup)
    (plain : ∀ base ∈ fixedBases ++ further, base.toList.head? ≠ some '_') :
    (names (callArguments descriptor) ++ further.map (freeName descriptor)).Nodup := by
  have ordered := (names_callArguments_perm descriptor).append_right
    (further.map (freeName descriptor))
  -- Which fixed arguments there are does not matter: their names are among those of all bases.
  have fixed := (names_fixedArguments_sublist descriptor).append_right
    (further.map (freeName descriptor))
  rw [← List.map_append] at fixed
  rw [ordered.nodup_iff, List.append_assoc]
  refine List.nodup_append'.mpr ⟨?_, (nodup_freeNames descriptor bases plain).sublist fixed, ?_⟩
  · rwa [names_pathArguments]
  · intro name path member
    obtain ⟨base, -, rfl⟩ := List.mem_map.mp (fixed.subset member)
    exact freeName_not_mem descriptor base (names_pathArguments descriptor ▸ path)

theorem nodup_callArguments {descriptor : Descriptor}
    (distinct : (pathIdentifiers descriptor).Nodup) : (names (callArguments descriptor)).Nodup := by
  have spread := nodup_names_append distinct [] (by decide) (by decide)
  rwa [List.map_nil, List.append_nil] at spread

/-- The response is held in a local variable of its own name. -/
theorem nodup_function {descriptor : Descriptor} (distinct : (pathIdentifiers descriptor).Nodup) :
    (names (function descriptor).arguments ++ [freeName descriptor "res"]).Nodup := by
  have spread := nodup_names_append distinct ["options", "res"] (by decide) (by decide)
  have shape : names (function descriptor).arguments =
      names (callArguments descriptor) ++ [freeName descriptor "options"] := names_append _ _
  rwa [shape, List.append_assoc]

theorem inOrder_followed {last : Argument} (optional : last.optional = true) :
    InOrder (callArguments descriptor ++ [last]) := by
  obtain ⟨front, back, shape, required, others⟩ := callArguments_split descriptor
  rw [shape, List.append_assoc]
  refine inOrder_append required ?_
  intro argument member
  rcases List.mem_append.mp member with other | other
  · exact others argument other
  · rwa [List.mem_singleton.mp other]

/-- Which arguments there are, each of them once. -/
structure Complete : Prop where
  contents : (callArguments descriptor).Perm (pathArguments descriptor ++ bodyArgument descriptor ++
    queryArgument descriptor ++ headersArgument descriptor)
  path : ∀ param ∈ descriptor.allPathParams,
    (names (callArguments descriptor)).count param.identifier = 1
  body : (names (callArguments descriptor)).count (freeName descriptor "data") =
    if descriptor.hasBody then 1 else 0
  query : (names (callArguments descriptor)).count (freeName descriptor "params") =
    if descriptor.queryParamsType.isSome then 1 else 0
  headers : (names (callArguments descriptor)).count (freeName descriptor "headers") =
    if descriptor.headerParams.isEmpty then 0 else 1

theorem count_freeName (base : String) :
    (names (callArguments descriptor)).count (freeName descriptor base) =
      (names (fixedArguments descriptor)).count (freeName descriptor base) := by
  have absent : (names (pathArguments descriptor)).count (freeName descriptor base) = 0 := by
    rw [names_pathArguments]
    exact List.count_eq_zero_of_not_mem (freeName_not_mem descriptor base)
  rw [(names_callArguments_perm descriptor).count_eq, List.count_append, absent, Nat.zero_add]

theorem complete {descriptor : Descriptor} (distinct : (pathIdentifiers descriptor).Nodup) :
    Complete descriptor := by
  have query_body := freeName_ne descriptor "params" "data" (by decide) (by decide) (by decide)
  have headers_body := freeName_ne descriptor "headers" "data" (by decide) (by decide) (by decide)
  have headers_query := freeName_ne descriptor "headers" "params" (by decide) (by decide) (by decide)
  constructor
  case contents =>
    have ordered := callArguments_perm descriptor
    rwa [fixedArguments, ← List.append_assoc, ← List.append_assoc] at ordered
  case path =>
    intro param member
    refine List.count_eq_one_of_mem (nodup_callArguments distinct) ?_
    refine (names_callArguments_perm descriptor).symm.subset (List.mem_append_left _ ?_)
    rw [names_pathArguments]
    exact List.mem_map_of_mem member
  all_goals
    rw [count_freeName, names_fixedArguments, names_bodyArgument, names_queryArgument,
      names_headersArgument]
  case body => simp [apply_ite (List.count _), query_body, headers_body]
  case query =>
    simp [apply_ite (List.count _), query_body.symm, headers_query]
  case headers =>
    simp [apply_ite (List.count _), headers_body.symm, headers_query.symm]

end Fetch

/-! ### What the hooks pass on -/

namespace QueryHooks

variable (descriptor : Descriptor)

theorem nodup_hook {descriptor : Descriptor} (distinct : (pathIdentifiers descriptor).Nodup) :
    (names (hookArguments descriptor)).Nodup := by
  have spread := nodup_names_append distinct ["queryOptions"] (by decide) (by decide)
  rwa [hookArguments, names_append]

theorem filter_named_nil {arguments : List Argument} {name : String}
    (absent : name ∉ names arguments) : arguments.filter (·.name == name) = [] := by
  rw [List.filter_eq_nil_iff]
  intro argument member same
  exact absent (eq_of_beq same ▸ List.mem_map_of_mem member)

theorem filter_headers : (fixedArguments descriptor).filter (·.name == freeName descriptor "headers") =
    headersArgument descriptor := by
  have body : freeName descriptor "headers" ∉ names (bodyArgument descriptor) := by
    have other := freeName_ne descriptor "headers" "data" (by decide) (by decide) (by decide)
    rw [names_bodyArgument]
    split <;> simp [other]
  have query : freeName descriptor "headers" ∉ names (queryArgument descriptor) := by
    have other := freeName_ne descriptor "headers" "params" (by decide) (by decide) (by decide)
    rw [names_queryArgument]
    split <;> simp [other]
  have headers : (headersArgument descriptor).filter (·.name == freeName descriptor "headers") =
      headersArgument descriptor := by
    unfold headersArgument
    split <;> simp
  rw [fixedArguments, List.filter_append, List.filter_append, filter_named_nil body,
    filter_named_nil query, headers]
  rfl

/-- Taking the headers out by name takes out the headers argument and nothing else. -/
theorem callArguments_perm_key :
    (callArguments descriptor).Perm (keyArguments descriptor ++ headersArgument descriptor) := by
  have path : freeName descriptor "headers" ∉ names (pathArguments descriptor) := by
    rw [names_pathArguments]
    exact freeName_not_mem descriptor "headers"
  have dropped := (callArguments_perm descriptor).filter (·.name == freeName descriptor "headers")
  rw [List.filter_append, filter_named_nil path, filter_headers, List.nil_append] at dropped
  have parted := List.filter_append_perm (fun argument : Argument =>
    !(argument.name == freeName descriptor "headers")) (callArguments descriptor)
  simp only [Bool.not_not] at parted
  exact parted.symm.trans (dropped.append_left _)

/-- The parameters of the function, of the query hook and of the key function, and what the hooks pass:
the query hook its own arguments, the mutation hook the properties of its variables. -/
structure LinesUp : Prop where
  functionDistinct : (names (Fetch.function descriptor).arguments).Nodup
  hookDistinct : (names (hookArguments descriptor)).Nodup
  responseFree : freeName descriptor "res" ∉ names (Fetch.function descriptor).arguments
  functionInOrder : InOrder (Fetch.function descriptor).arguments
  hookInOrder : InOrder (hookArguments descriptor)
  complete : Complete descriptor
  queryPasses : ∀ (place : Nat) (name : String),
    (queryCall descriptor).arguments[place]? = some name →
      ∃ parameter, (Fetch.function descriptor).arguments[place]? = some parameter ∧
        named? (hookArguments descriptor) name = some parameter
  mutationPasses : ∀ (place : Nat) (text : String),
    (mutationCall descriptor).arguments[place]? = some text →
      ∃ parameter, (Fetch.function descriptor).arguments[place]? = some parameter ∧
        text = "vars." ++ parameter.name ∧ (variablesType descriptor).member? parameter.name =
          some ⟨parameter.name, parameter.type, parameter.optional, none⟩
  queryPassesAll : (queryCall descriptor).arguments.length + 1 =
    (Fetch.function descriptor).arguments.length
  mutationPassesAll : (mutationCall descriptor).arguments.length + 1 =
    (Fetch.function descriptor).arguments.length
  keyPasses : (keyCall descriptor).arguments.map (named? (hookArguments descriptor)) =
    (keyArguments descriptor).map some
  keyOrder : (keyArguments descriptor).Sublist (callArguments descriptor)
  keyContents : (callArguments descriptor).Perm
    (keyArguments descriptor ++ headersArgument descriptor)

theorem exists_argument {place : Nat} {name : String}
    (passed : (names (callArguments descriptor))[place]? = some name) :
    ∃ argument ∈ callArguments descriptor, argument.name = name ∧
      (Fetch.function descriptor).arguments[place]? = some argument := by
  rw [names, List.getElem?_map, Option.map_eq_some_iff] at passed
  obtain ⟨argument, held, same⟩ := passed
  obtain ⟨below, -⟩ := List.getElem?_eq_some_iff.mp held
  refine ⟨argument, List.mem_of_getElem? held, same, ?_⟩
  rw [Fetch.function, List.getElem?_append_left below, held]

theorem length_function : (names (callArguments descriptor)).length + 1 =
    (Fetch.function descriptor).arguments.length := by
  rw [names, Fetch.function, List.length_map, List.length_append, List.length_singleton]

variable {descriptor}

theorem named?_hookArguments (distinct : (pathIdentifiers descriptor).Nodup) {argument : Argument}
    (member : argument ∈ callArguments descriptor) :
    named? (hookArguments descriptor) argument.name = some argument :=
  named?_of_mem (nodup_hook distinct) (List.mem_append_left _ member)

theorem member?_variablesType (distinct : (pathIdentifiers descriptor).Nodup) {argument : Argument}
    (member : argument ∈ callArguments descriptor) :
    (variablesType descriptor).member? argument.name =
      some ⟨argument.name, argument.type, argument.optional, none⟩ := by
  have keys : (((callArguments descriptor).map fun argument : Argument =>
      (⟨argument.name, argument.type, argument.optional, none⟩ : Field TypeExpr)).map
        Field.name).Nodup := by
    rw [List.map_map]
    exact nodup_callArguments distinct
  exact find?_of_nodup keys (List.mem_map_of_mem member)

theorem keyPasses (distinct : (pathIdentifiers descriptor).Nodup) :
    (keyCall descriptor).arguments.map (named? (hookArguments descriptor)) =
      (keyArguments descriptor).map some := by
  rw [keyCall, names, List.map_map]
  apply List.map_congr_left
  intro argument member
  exact named?_hookArguments distinct (List.mem_filter.mp member).1

theorem signatures_line_up (distinct : (pathIdentifiers descriptor).Nodup) : LinesUp descriptor where
  functionDistinct := (List.nodup_append'.mp (nodup_function distinct)).1
  hookDistinct := nodup_hook distinct
  responseFree := by
    intro member
    exact (List.nodup_append'.mp (nodup_function distinct)).2.2 member (List.mem_singleton_self _)
  functionInOrder := inOrder_followed descriptor rfl
  hookInOrder := inOrder_followed descriptor rfl
  complete := Fetch.complete distinct
  queryPasses := by
    intro place name passed
    obtain ⟨argument, member, rfl, parameter⟩ := exists_argument descriptor passed
    exact ⟨argument, parameter, named?_hookArguments distinct member⟩
  queryPassesAll := length_function descriptor
  mutationPasses := by
    intro place text passed
    rw [mutationCall, List.getElem?_map, Option.map_eq_some_iff] at passed
    obtain ⟨name, passed, rfl⟩ := passed
    obtain ⟨argument, member, rfl, parameter⟩ := exists_argument descriptor passed
    exact ⟨argument, parameter, rfl, member?_variablesType distinct member⟩
  mutationPassesAll := by
    rw [mutationCall, List.length_map, length_function]
  keyPasses := keyPasses distinct
  keyOrder := List.filter_sublist
  keyContents := callArguments_perm_key descriptor

/-- A search whose path parameters have the names of the fixed arguments. -/
def crowdedSearch : Descriptor where
  name := "SearchShelf"
  verb := .get
  path := "/{data}/{_data}/{headers}/{options}/{res}/{queryOptions}"
  route := "/${data}/${_data}/${headers}/${options}/${res}/${queryOptions}"
  pathParams := ["data", "_data", "headers", "options", "res", "queryOptions"].map fun name =>
    ⟨name, name, true, .scalar .string⟩
  queryParamsType := some "SearchShelfQueryParams"
  queryRequired := true
  headerParams := [{ name := "prefer", location := .header }]
  bodyType := .named "Filter"

theorem crowdedSearch_lines_up :
    (pathIdentifiers crowdedSearch).Nodup ∧ LinesUp crowdedSearch :=
  ⟨by decide, signatures_line_up (by decide)⟩

example : names (hookArguments crowdedSearch) =
    ["data", "_data", "headers", "options", "res", "queryOptions", "params", "__data", "_headers",
      "_queryOptions"] := by
  decide +kernel

end QueryHooks
end TypedClient
