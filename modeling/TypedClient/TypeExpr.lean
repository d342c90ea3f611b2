/-!
Type expressions: the closed algebra that schemas are synthesized into and declarations are written
from. Descriptions of fields are carried along and take no part in `TypeExpr.same`.
-/
namespace TypedClient

/-- `void` and `unknown` stand for an absent body and an undeclared error. -/
inductive Scalar where
  | number
  | string
  | boolean
  | any
  | void
  | unknown
  deriving DecidableEq

structure Field (τ : Type) where
  name : String
  type : τ
  optional : Bool := false
  doc : Option String := none

inductive TypeExpr where
  | scalar (kind : Scalar)
  | literals (values : List String)
  | array (items : TypeExpr)
  /-- Named fields, and the type of all other keys when there may be any. -/
  | object (fields : List (Field TypeExpr)) (index : Option TypeExpr)
  | union (members : List TypeExpr)
  | intersection (members : List TypeExpr)
  | named (name : String)
  | nullable (inner : TypeExpr)

namespace TypeExpr

abbrev any : TypeExpr := .scalar .any

instance : Inhabited TypeExpr := ⟨any⟩

abbrev openMap : TypeExpr := .object [] (some any)

mutual

/-- Structural equality, blind to the descriptions of fields. -/
def same : TypeExpr → TypeExpr → Bool
  | .scalar a, .scalar b => a == b
  | .literals a, .literals b => a == b
  | .array a, .array b => same a b
  | .object fields index, .object fields' index' => sameFields fields fields' && sameIndex index index'
  | .union a, .union b => sameAll a b
  | .intersection a, .intersection b => sameAll a b
  | .named a, .named b => a == b
  | .nullable a, .nullable b => same a b
  | _, _ => false
termination_by structural x => x

def sameAll : List TypeExpr → List TypeExpr → Bool
  | [], [] => true
  | a :: as, b :: bs => same a b && sameAll as bs
  | _, _ => false
termination_by structural x => x

def sameIndex : Option TypeExpr → Option TypeExpr → Bool
  | none, none => true
  | some a, some b => same a b
  | _, _ => false
termination_by structural x => x

def sameFields : List (Field TypeExpr) → List (Field TypeExpr) → Bool
  | [], [] => true
  | ⟨name, type, optional, _⟩ :: rest, ⟨name', type', optional', _⟩ :: rest' =>
    name == name' && same type type' && optional == optional' && sameFields rest rest'
  | _, _ => false
termination_by structural x => x

end

end TypeExpr

/-- Appends what is not the same as an earlier element. -/
def addNew {α : Type} (same : α → α → Bool) (kept : List α) (x : α) : List α :=
  if kept.any (same · x) then kept else kept ++ [x]

/-- The first occurrences, in order. -/
def distinct {α : Type} (same : α → α → Bool) (xs : List α) : List α :=
  xs.foldl (addNew same) []

namespace TypeExpr

/-- No member is `any` and a single one stands for itself. -/
def collapse (wrap : List TypeExpr → TypeExpr) : List TypeExpr → TypeExpr
  | [] => any
  | [member] => member
  | members => wrap members

def unionMembers : TypeExpr → List TypeExpr
  | .union members => members
  | member => [member]

/-- A union without nested unions and repetitions. -/
def unionOf (members : List TypeExpr) : TypeExpr :=
  collapse .union (distinct same (members.flatMap unionMembers))

def intersectionOf (members : List TypeExpr) : TypeExpr :=
  collapse .intersection (distinct same members)

def literalsOf (values : List String) : TypeExpr :=
  .literals (distinct (· == ·) values)

def orNull : TypeExpr → TypeExpr
  | .nullable inner => .nullable inner
  | type => .nullable type

def isObject : TypeExpr → Bool
  | .object .. => true
  | _ => false

end TypeExpr
end TypedClient
