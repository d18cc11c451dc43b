import GateGraph.Binary.Basic

/-!
# `GateGraph.Attribute.Visitor` — visitors of named attributes

Something that has attributes shows them one by one to a visitor: the name and the present value. The
visitor answers with the value that the attribute has from then on, and may keep a state of its own. A
visitor that only looks answers with the present value.

## Contents
- `Visitor`; `Content`, an attribute's value whatever its type; `Visitor.contents`, a visit of any list of
  attributes.
- `recorder` notes what it sees, `overwriter` puts given values in place of the present ones.
-/

namespace GateGraph.Attribute

/-- One answer for each type of attribute. -/
structure Visitor (m : Type → Type) where
  natural : String → UInt64 → m UInt64
  real : String → Binary32 → m Binary32
  strings : String → List String → m (List String)
  reals : String → List Binary32 → m (List Binary32)

/-- The value of an attribute. -/
inductive Content
  | natural (n : UInt64)
  | real (x : Binary32)
  | strings (s : List String)
  | reals (xs : List Binary32)
  deriving DecidableEq

/-- Shows an attribute to a visitor, whatever its type. -/
def Visitor.content {m : Type → Type} [Functor m] (v : Visitor m) (name : String) : Content → m Content
  | .natural n => .natural <$> v.natural name n
  | .real x => .real <$> v.real name x
  | .strings s => .strings <$> v.strings name s
  | .reals xs => .reals <$> v.reals name xs

/-- Shows attributes to a visitor, one after another. -/
def Visitor.contents {m : Type → Type} [Monad m] (v : Visitor m) (attributes : List (String × Content)) :
    m (List Content) :=
  attributes.mapM fun (name, present) => v.content name present

/-- Appends a visited attribute to what has been seen. -/
def note {α : Type} (wrap : α → Content) (name : String) (present : α) :
    StateM (List (String × Content)) α := do
  modify (· ++ [(name, wrap present)])
  return present

/-- Looks at all attributes and lists them in the order of the visit. -/
def recorder : Visitor (StateM (List (String × Content))) where
  natural := note .natural
  real := note .real
  strings := note .strings
  reals := note .reals

/-- Puts the listed values in place of attributes with the same name and type. -/
def overwriter (values : List (String × Content)) : Visitor Id where
  natural name present := match values.lookup name with
    | some (.natural n) => n
    | _ => present
  real name present := match values.lookup name with
    | some (.real x) => x
    | _ => present
  strings name present := match values.lookup name with
    | some (.strings s) => s
    | _ => present
  reals name present := match values.lookup name with
    | some (.reals xs) => xs
    | _ => present

end GateGraph.Attribute
