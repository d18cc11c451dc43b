/-!
# `GateGraph.Attribute.Fault` — attributes of the wrong type

An attribute is a named value of one of four types. A fault is an attribute that was there but did not have
the type that was asked for.
-/

namespace GateGraph.Attribute

/-- The types of attributes. -/
inductive Kind
  | natural
  | real
  | strings
  | reals
  deriving DecidableEq, Repr

/-- What an attribute of a type has to be. -/
def Kind.text : Kind → String
  | natural => "非负整数"
  | real => "数值"
  | strings => "字符串数组"
  | reals => "数值数组"

/-- The name of an attribute that does not have the expected type. -/
structure Fault where
  name : String
  expected : Kind
  deriving DecidableEq, Repr

def Fault.text (f : Fault) : String := f.name ++ "应为" ++ f.expected.text

end GateGraph.Attribute
