/-
  Building a dependency graph from declarations.

  Problems are collected while building and never stop it: a second provider
  for a key is left out, a provider for a type that is not concrete enters the
  graph all the same, so that its dependents are not reported as well.
-/
import Injection.Event
import Injection.Graph.Basic

namespace Injection

/-- A graph under construction, and the problems found so far. -/
structure Graph.Draft where
  graph : Graph
  diagnostics : Array Diagnostic

namespace Graph.Draft

def empty : Draft := ⟨.empty, #[]⟩

/-- Reports a provider whose type is not concrete. -/
def checkConcrete (diagnostics : Array Diagnostic) (provider : ProviderDecl) :
    Logged (Array Diagnostic) := do
  if provider.key.type.isConcrete then return diagnostics
  Logged.emit (.nonConcreteProvider provider.key provider.origin)
  return diagnostics.push ⟨provider.key, .nonConcrete, provider.origin.render⟩

def addProvider (draft : Draft) (provider : ProviderDecl) : Logged Draft := do
  let ⟨graph, diagnostics⟩ := draft
  let diagnostics ← checkConcrete diagnostics provider
  match graph.insert provider.key (.ofProvider provider) with
  | (graph, none) => return ⟨graph, diagnostics⟩
  | (graph, some (key, rejected)) =>
    let previous := ((graph.node? key).map Node.location).getD ""
    Logged.emit (.duplicateProvider key rejected.location previous)
    return ⟨graph, diagnostics.push ⟨key, .duplicate, rejected.location⟩⟩

def addModule (draft : Draft) (unit : ModuleDecl) : Logged Draft := do
  Logged.emit (.moduleAdded unit.name unit.providers.length)
  unit.providers.foldlM addProvider draft

/-- What is added to a draft at once. -/
inductive Addition where
  /-- All providers that a module declares. -/
  | unit (unit : ModuleDecl)
  | provider (provider : ProviderDecl)

def add (draft : Draft) : Addition → Logged Draft
  | .unit unit => draft.addModule unit
  | .provider provider => draft.addProvider provider

/-- Adds the injector, which provides itself; a provider that took its key is a duplicate. -/
def addInjector (draft : Draft) : Logged Draft := do
  let ⟨graph, diagnostics⟩ := draft
  match graph.insert .injector (.ofEdges []) with
  | (graph, none) => return ⟨graph, diagnostics⟩
  | (graph, some (key, _)) =>
    let location := ((graph.node? key).map Node.location).getD ""
    Logged.emit (.injectorProvided key location)
    return ⟨graph, diagnostics.push ⟨key, .duplicate, location⟩⟩

/-- Finishes the graph, and hands over the problems found. -/
def finish (draft : Draft) : Logged (Graph × List Diagnostic) := do
  let ⟨graph, diagnostics⟩ ← draft.addInjector
  Logged.emit (.graphBuilt graph.size graph.edgeCount diagnostics.size)
  return (graph, diagnostics.toList)

end Graph.Draft

/-- The graph of modules and single providers, and the problems found while building it. -/
def Graph.ofAdditions (additions : List Graph.Draft.Addition) :
    Logged (Graph × List Diagnostic) := do
  (← additions.foldlM Graph.Draft.add .empty).finish

/-- The graph of a list of modules, and the problems found while building it. -/
def Graph.ofModules (modules : List ModuleDecl) : Logged (Graph × List Diagnostic) := do
  (← modules.foldlM Graph.Draft.addModule .empty).finish

end Injection
