/-
The expressions of Kconfig files and their values.

A symbol is a pointer: to one of the three constants, or into the table that
the parser fills.  The functions that rewrite expressions free or reuse the
nodes of their argument and never share one, so a rewritten expression is a new
tree here.  Lists of choice values and ranges belong to their properties.
-/

import BuildLinux.NumberText
import Mathlib.Order.Basic

namespace BuildLinux.Concrete.KconfigExpr

open CStrings NumberText

/-! ### Tristates -/

inductive Tristate where
  | no
  | mod
  | yes
  deriving DecidableEq, Repr

namespace Tristate

def toNat : Tristate → Nat
  | no => 0
  | mod => 1
  | yes => 2

instance : LinearOrder Tristate :=
  LinearOrder.lift' toNat (by
    intro left right same
    cases left <;> cases right <;> first | rfl | cases same)

/-- `EXPR_OR` -/
def or (dep1 dep2 : Tristate) : Tristate := if dep1 > dep2 then dep1 else dep2

/-- `EXPR_AND` -/
def and (dep1 dep2 : Tristate) : Tristate := if dep1 < dep2 then dep1 else dep2

/-- `EXPR_NOT` -/
def not : Tristate → Tristate
  | no => yes
  | mod => mod
  | yes => no

def ofBool (holds : Bool) : Tristate := if holds then yes else no

end Tristate

/-! ### Symbols -/

inductive SymbolType where
  | unknown
  | boolean
  | tristate
  | int
  | hex
  | string
  | other
  deriving DecidableEq

/-- `&symbol_yes`, `&symbol_mod`, `&symbol_no` and the symbols of the hash table. -/
inductive Symbol (entry : Type) where
  | yes
  | mod
  | no
  | entry (index : entry)
  deriving DecidableEq

/-- The table after the Kconfig files have been read.  Only `sym_lookup` makes a
constant, with a name that no other constant has, and gives it no type; for `y`,
`m` and `n` it has the three constants.  The type `S_OTHER` is given later, to
symbols of `auto.conf`. -/
structure SymbolTable (entry : Type) where
  type : entry → SymbolType
  name : entry → CString
  const : entry → Bool
  constUntyped : ∀ index, const index = true → type index = .unknown
  constName : ∀ left right, const left = true → const right = true →
    name left = name right → left = right
  constListed : ∀ index, const index = true →
    name index ≠ "y".toList ∧ name index ≠ "m".toList ∧ name index ≠ "n".toList
  noOther : ∀ index, type index ≠ .other

variable {entry : Type}

def SymbolTable.typeOf (table : SymbolTable entry) : Symbol entry → SymbolType
  | .entry index => table.type index
  | _ => .unknown

/-- `SYMBOL_CONST` -/
def SymbolTable.isConst (table : SymbolTable entry) : Symbol entry → Bool
  | .entry index => table.const index
  | _ => true

/-- The calculated values: `curr` of each symbol and the `curr.tri` of `modules_sym`. -/
structure Values (entry : Type) where
  tri : entry → Tristate
  val : entry → CString
  modules : Tristate

def Values.triOf (values : Values entry) : Symbol entry → Tristate
  | .yes => .yes
  | .mod => .mod
  | .no => .no
  | .entry index => values.tri index

def symGetStringValue (table : SymbolTable entry) (values : Values entry) :
    Symbol entry → CString
  | .yes => "y".toList
  | .mod => "m".toList
  | .no => "n".toList
  | .entry index =>
      if table.type index = .boolean ∨ table.type index = .tristate then
        match values.tri index with
        | .no => "n".toList
        | .mod => if values.modules = .no then "n".toList else "m".toList
        | .yes => "y".toList
      else values.val index

/-- What `sym_calc_value` leaves in every symbol. -/
structure Coherent (table : SymbolTable entry) (values : Values entry) : Prop where
  boolean : ∀ index, table.type index = .boolean → values.tri index ≠ .mod
  tristate : ∀ index, table.type index = .tristate → values.modules = .no →
    values.tri index ≠ .mod
  unknown : ∀ index, table.type index = .unknown → values.val index = table.name index

/-! ### Expressions -/

/-- The types of a comparison. -/
inductive Relation where
  | equal
  | unequal
  | lth
  | leq
  | gth
  | geq
  deriving DecidableEq

/-- `E_OR` and `E_AND` -/
inductive Connective where
  | or
  | and
  deriving DecidableEq

inductive Expr (entry : Type) where
  | symbol (sym : Symbol entry)
  | not (operand : Expr entry)
  | two (type : Connective) (left right : Expr entry)
  | comp (type : Relation) (left right : Symbol entry)
  deriving DecidableEq

/-! ### Values of expressions -/

inductive StringValueKind where
  | string
  | signed
  | unsigned
  | invalid
  deriving DecidableEq

/-- The number, when all of the text is one. -/
def parsedKind (kind : StringValueKind) (text : CString) (parsed : Parsed) :
    StringValueKind × BitVec 64 :=
  if parsed.erange = false ∧ parsed.tail = [] ∧ text ≠ [] then (kind, BitVec.ofInt 64 parsed.value)
  else (.string, BitVec.ofInt 64 parsed.value)

def exprParseString (text : CString) : SymbolType → StringValueKind × BitVec 64
  | .boolean | .tristate => (.string, 0)
  | .int => parsedKind .signed text (strtoll 10 text)
  | .hex => parsedKind .unsigned text (strtoull 16 text)
  | .string | .unknown => parsedKind .signed text (strtoll 0 text)
  | .other => (.invalid, 0)

/-- How the two values compare; none where they cannot be compared. -/
def compareValues (type1 type2 : SymbolType) (str1 str2 : CString) : Option Ordering :=
  let parsed := if type1 ≠ .string ∨ type2 ≠ .string
    then (exprParseString str1 type1, exprParseString str2 type2)
    else ((.string, 0), (.string, 0))
  if parsed.1.1 = .string ∨ parsed.2.1 = .string then some (strcmp str1 str2)
  else if parsed.1.1 = .invalid ∨ parsed.2.1 = .invalid then none
  else if parsed.1.1 = .unsigned ∨ parsed.2.1 = .unsigned then
    some (compare parsed.1.2.toNat parsed.2.2.toNat)
  else some (compare parsed.1.2.toInt parsed.2.2.toInt)

def Relation.holds : Relation → Ordering → Bool
  | .equal, res => res == .eq
  | .unequal, res => res != .eq
  | .lth, res => res == .lt
  | .leq, res => res != .gt
  | .gth, res => res == .gt
  | .geq, res => res != .lt

/-- Values that cannot be compared are compared as strings by `=` and `!=` only. -/
def compValue (type : Relation) (str1 str2 : CString) : Option Ordering → Tristate
  | some res => .ofBool (type.holds res)
  | none =>
      if type = .equal ∨ type = .unequal then .ofBool (type.holds (strcmp str1 str2)) else .no

def Connective.apply : Connective → Tristate → Tristate → Tristate
  | .or => Tristate.or
  | .and => Tristate.and

def exprCalcValue (table : SymbolTable entry) (values : Values entry) : Expr entry → Tristate
  | .symbol sym => values.triOf sym
  | .not operand => (exprCalcValue table values operand).not
  | .two type left right =>
      type.apply (exprCalcValue table values left) (exprCalcValue table values right)
  | .comp type left right =>
      compValue type (symGetStringValue table values left) (symGetStringValue table values right)
        (compareValues (table.typeOf left) (table.typeOf right)
          (symGetStringValue table values left) (symGetStringValue table values right))

/-- Without an expression there is no condition. -/
def condition (table : SymbolTable entry) (values : Values entry) : Option (Expr entry) → Tristate
  | none => .yes
  | some e => exprCalcValue table values e

end BuildLinux.Concrete.KconfigExpr
