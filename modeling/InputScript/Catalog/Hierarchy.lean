/-
Module: InputScript.Catalog.Hierarchy
Purpose: Operations that are declared on the methods of classes.  A class takes over the declarations
  of its bases; a method that is defined again counts in its latest definition only.
Main exports: ClassDefinition, Hierarchy, Registry.ofHierarchy
-/
import InputScript.Catalog.Registry

namespace InputScript.Catalog

/-! ### Classes -/

/-- A method: the operations that it is declared to be, and the function behind them. -/
structure Method where
  declarations : List Declaration
  implementation : Implementation

/-- What a name stands for in a class. -/
inductive Attribute where
  | method (definition : Method)
  /-- Something that is no operation. -/
  | plain

/-- The operations that an attribute is declared to be. -/
def Attribute.declarations : Attribute → List Declaration
  | .plain => []
  | .method definition => definition.declarations

/-- Whether an attribute is declared to be an operation. -/
def Attribute.isDeclared (definition : Attribute) : Bool :=
  !definition.declarations.isEmpty

/-- Operations with the function behind an attribute.  Something that is no method has none. -/
def Attribute.bind (declarations : List Declaration) : Attribute → List Overload
  | .plain => []
  | .method definition =>
    declarations.map fun declaration => .make declaration none definition.implementation

/-- A class with its own attributes. -/
structure ClassDefinition where
  name : String
  bases : List String := []
  attributes : Dictionary Attribute := []

/-! ### The order of resolution -/

/-- The class that every class is derived from. -/
def rootClass : String := "object"

/-- Why a class cannot be defined. -/
inductive HierarchyError where
  | duplicateBase (name : String)
  /-- The orders of the bases contradict each other; the classes that could come next. -/
  | inconsistent (heads : List String)
  deriving DecidableEq, Repr

/-- The wording of a hierarchy error. -/
def HierarchyError.message : HierarchyError → String
  | .duplicateBase name => s!"duplicate base class {name}"
  | .inconsistent heads =>
    "Cannot create a consistent method resolution\norder (MRO) for bases " ++
      String.intercalate ", " heads

/-- The first name at the head of an order that comes later in none of them. -/
def nextClass? (orders : List (List String)) : Option String :=
  (orders.filterMap List.head?).find? fun name => orders.all fun order => !order.tail.contains name

/-- Take a name off the head of an order. -/
def withoutHead (name : String) (order : List String) : List String :=
  if order.head? == some name then order.tail else order

/-- Merge orders into one that agrees with all of them.  Each round uses up one name, so as many
rounds as there are names are enough. -/
def mergeOrders : Nat → List (List String) → Except HierarchyError (List String)
  | 0, _ => .ok []
  | rounds + 1, orders =>
    let pending := orders.filter (!·.isEmpty)
    if pending.isEmpty then .ok []
    else
      match nextClass? pending with
      | none => .error (.inconsistent (pending.filterMap List.head?).eraseDups)
      | some name => (mergeOrders rounds (pending.map (withoutHead name))).map (name :: ·)

/-- The first name that occurs twice. -/
def duplicate? : List String → Option String
  | [] => none
  | name :: rest => if rest.contains name then some name else duplicate? rest

/-- The classes defined so far, each with the order in which its attributes are looked up: itself
first, then its bases. -/
structure Hierarchy where
  classes : List ClassDefinition := []
  orders : Dictionary (List String) := []

namespace Hierarchy

/-- The order of look-up of a class. -/
def orderOf (hierarchy : Hierarchy) (name : String) : List String :=
  (Dictionary.get? hierarchy.orders name).getD [rootClass]

/-- The order of look-up of a new class. -/
def newOrder (hierarchy : Hierarchy) (definition : ClassDefinition) :
    Except HierarchyError (List String) := do
  let bases := if definition.bases.isEmpty then [rootClass] else definition.bases
  match duplicate? bases with
  | some name => throw (.duplicateBase name)
  | none =>
    let orders := bases.map hierarchy.orderOf ++ [bases]
    return definition.name :: (← mergeOrders orders.flatten.length orders)

/-- Define a class. -/
def define (hierarchy : Hierarchy) (definition : ClassDefinition) :
    Except HierarchyError Hierarchy := do
  let order ← hierarchy.newOrder definition
  return ⟨hierarchy.classes ++ [definition],
    Dictionary.set hierarchy.orders definition.name order⟩

/-- Define classes one after another. -/
def ofClasses (definitions : List ClassDefinition) : Except HierarchyError Hierarchy :=
  definitions.foldlM define {}

/-- The own attributes of a class. -/
def attributesOf (hierarchy : Hierarchy) (name : String) : Dictionary Attribute :=
  match hierarchy.classes.find? (·.name == name) with
  | some definition => definition.attributes
  | none => []

/-- Take in an attribute, from base to derived classes: a declared one, and any new definition of one
that is known already. -/
def takeAttribute (known : Dictionary Attribute) (entry : String × Attribute) :
    Dictionary Attribute :=
  if Dictionary.has known entry.1 || entry.2.isDeclared then Dictionary.set known entry.1 entry.2
  else known

/-- The attributes that count for a class, in the order in which a declared definition of them is
first met from base to derived classes. -/
def effective (hierarchy : Hierarchy) (name : String) : Dictionary Attribute :=
  ((hierarchy.orderOf name).reverse.flatMap hierarchy.attributesOf).foldl takeAttribute []

/-- What an attribute stands for on an instance of a class: its definition in the first class in the
order of look-up that has one. -/
def lookUp? (hierarchy : Hierarchy) (name attributeName : String) : Option Attribute :=
  (hierarchy.orderOf name).findSome? fun definer =>
    Dictionary.get? (hierarchy.attributesOf definer) attributeName

/-- The operations of an attribute that counts for a class: its declarations, with the function that
is found on an instance. -/
def boundOverloads (hierarchy : Hierarchy) (name : String) (entry : String × Attribute) :
    List Overload :=
  match hierarchy.lookUp? name entry.1 with
  | none => []
  | some found => found.bind entry.2.declarations

end Hierarchy

/-- The table of the operations that are declared on a class. -/
def Registry.ofHierarchy (hierarchy : Hierarchy) (name : String) : Registry :=
  .registerAll .empty ((hierarchy.effective name).flatMap (hierarchy.boundOverloads name))

/-- The table of the operations that are declared on the last of some classes, and of further
operations. -/
def Registry.ofClasses (definitions : List ClassDefinition) (overloads : List Overload) :
    Except HierarchyError Registry :=
  match definitions.getLast? with
  | none => .ok (Registry.empty.registerAll overloads)
  | some last =>
    (Hierarchy.ofClasses definitions).map fun hierarchy =>
      (Registry.ofHierarchy hierarchy last.name).registerAll overloads

end InputScript.Catalog
