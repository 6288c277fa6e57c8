/-
  What is written down while providers are looked up and instances are made.

  Lookups read nothing but the resolver they go through: they end with an
  answer or a fault, and leave notes and events in a journal.
-/
import Injection.Event

namespace Injection

/-- The notes of factories and interceptors, and the events of the library, each in order. -/
structure Journal where
  notes : Array String
  events : Array Event

def Journal.empty : Journal := ⟨#[], #[]⟩

/-- Computations that look providers up. -/
abbrev Lookup := ExceptT Fault (StateM Journal)

namespace Lookup

def note (line : String) : Lookup Unit :=
  modify fun journal => { journal with notes := journal.notes.push line }

def report (event : Event) : Lookup Unit :=
  modify fun journal => { journal with events := journal.events.push event }

def attempt {α : Type} (lookup : Lookup α) : Lookup (Except Fault α) :=
  ExceptT.lift lookup.run

end Lookup

end Injection
