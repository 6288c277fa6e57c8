/-
  Instances: what providers make.

  An instance is a scalar, an object of the program's own or an injector.  An
  object shows what it was made from: instances, handles that ask for an
  instance later, and the outcomes of requests that did not give one.
-/
import Injection.Fault

namespace Injection

abbrev InjectorId := Nat

/-- The number of the cell in which a lazy handle keeps its instance. -/
abbrev LazyId := Nat

/-- What a deferred handle asks for: an injector, a key, and the type that the instance is to have.
    A handle does not keep its injector alive. -/
structure Handle where
  injector : InjectorId
  key : Key
  expected : String

mutual

inductive Instance where
  | text (s : String)
  | integer (n : Int64)
  | flag (b : Bool)
  /-- An object of a type of the program's own.  Its serial number tells it from all others. -/
  | object (type label : String) (serial : Nat) (parts : List Part)
  | injector (id : InjectorId)

/-- What an object was made from. -/
inductive Part where
  | made (value : Instance)
  /-- A handle that asks anew each time. -/
  | handle (handle : Handle)
  /-- A handle that asks until it gets an instance, and keeps that one. -/
  | lazy (handle : Handle) (cell : LazyId)
  /-- Whether a provider was found. -/
  | found (b : Bool)
  /-- A request that failed. -/
  | failed (fault : Fault)

end

namespace Instance

def textType : String := "alloc::string::String"

def integerType : String := "i64"

def flagType : String := "bool"

def type : Instance → String
  | .text _ => textType
  | .integer _ => integerType
  | .flag _ => flagType
  | .object type _ _ _ => type
  | .injector _ => Key.injectorType

/-- The instance that a key gave, if it is of the type expected. -/
def checked (key : Key) (expected : String) (value : Instance) : Except Fault Instance :=
  if value.type = expected then .ok value else .error (.wrongType key expected)

end Instance

/-- A description of an instance without parts. -/
inductive Template where
  | text (s : String)
  | integer (n : Int64)
  | flag (b : Bool)
  | object (type label : String)

/-- Makes the instance that a template describes, with the next serial number for an object. -/
def Template.realise {m : Type → Type} [Monad m] (nextSerial : m Nat) : Template → m Instance
  | .text s => pure (.text s)
  | .integer n => pure (.integer n)
  | .flag b => pure (.flag b)
  | .object type label => do return .object type label (← nextSerial) []

end Injection
