/-
  What a program declares: the providers of its modules, and the classes whose
  members are to be injected.
-/
import Injection.Key.Basic

namespace Injection

/-! ## Providers -/

/-- The declaration that a provider comes from. -/
inductive Origin where
  | method (owner name : String)
  | field (owner name : String)
  | constructor (owner : String)

/-- The name that stands for the constructor of a class. -/
def constructorName : String := "<init>"

namespace Origin

/-- The module or class in which the declaration stands. -/
def owner : Origin → String
  | .method owner _ | .field owner _ | .constructor owner => owner

def name : Origin → String
  | .method _ name | .field _ name => name
  | .constructor _ => constructorName

/-- The text of an origin, which tells where a problem lies. -/
def render (origin : Origin) : String := origin.owner ++ "::" ++ origin.name

end Origin

/-- How long an instance is used again. -/
inductive Scope where
  /-- One instance for the injector that provides it. -/
  | singleton
  /-- A scope of the program's own. -/
  | custom (type : TypeExpr)
  deriving DecidableEq

def Scope.render : Scope → String
  | .singleton => "Singleton"
  | .custom type => type.render

/-- The declaration of a provider: the key it provides, and the keys it needs in order. -/
structure ProviderDecl where
  origin : Origin
  key : Key
  dependencies : List Key
  scope : Option Scope

/-- Whether the provider makes one instance only. -/
def ProviderDecl.isSingleton (provider : ProviderDecl) : Bool := provider.scope = some .singleton

/-- A module with the providers it declares. -/
structure ModuleDecl where
  name : String
  providers : List ProviderDecl

/-- A provider that a module declares by a method, without a scope. -/
def ProviderDecl.ofMethod (owner name : String) (key : Key) (dependencies : List Key) :
    ProviderDecl :=
  ⟨.method owner name, key, dependencies, none⟩

/-! ## Injection targets -/

/-- A place at which a class receives instances. -/
inductive InjectionPoint where
  | constructor (keys : List Key)
  | field (name : String) (key : Key)
  | method (name : String) (keys : List Key)

namespace InjectionPoint

/-- The keys needed at a place, in order. -/
def keys : InjectionPoint → List Key
  | .constructor keys => keys
  | .field _ key => [key]
  | .method _ keys => keys

def name : InjectionPoint → String
  | .constructor _ => constructorName
  | .field name _ | .method name _ => name

end InjectionPoint

/-- A class whose members are to be injected. -/
structure TargetDecl where
  type : TypeExpr
  points : List InjectionPoint

/-- Every key that a class needs, with the place that needs it. -/
def TargetDecl.requirements (target : TargetDecl) : List (String × Key) :=
  target.points.flatMap fun point =>
    point.keys.map fun key => (target.type.render ++ "::" ++ point.name, key)

end Injection
