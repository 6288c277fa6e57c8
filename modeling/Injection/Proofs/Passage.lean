/-
  Which interceptors a demand for a provider runs, and in what order.

  The provider interceptors of an injector see a demand before its resolver
  does.  The resolver interceptors stand around every registry of a lineage, so
  the search passes all of them once for each registry that it comes to.

  * `Lookup.Writes`: the notes that a lookup leaves, and how it ends;
  * `Lookup.chain_writes`: a chain of interceptors that record runs in order;
  * `Injector.Lineage.inner_writes`: a search passes the wrappers once for each
    registry, up to the nearest one that holds the key;
  * `Injector.Lineage.getProvider_writes`: both together, from the last injector
    of a lineage.
-/
import Injection.Proofs.Lineage

namespace Injection

/-! ## Notes of lookups -/

/-- Whatever was noted before, a lookup adds some notes, reports no event, and ends with an
    outcome. -/
def Lookup.Writes {α : Type} (lookup : Lookup α) (lines : List String)
    (outcome : Except Fault α) : Prop :=
  ∀ journal : Journal, lookup.run.run journal =
    (outcome, { journal with notes := journal.notes ++ lines.toArray })

namespace Lookup.Writes

variable {α β : Type} {lookup : Lookup α} {f : α → Lookup β} {a : α} {fault : Fault}
  {lines : List String} {outcome : Except Fault α}

theorem pure (a : α) : Writes (pure a) [] (.ok a) := by
  intro journal
  rw [Array.append_empty]
  rfl

theorem throw (fault : Fault) : Writes (throw fault : Lookup α) [] (.error fault) := by
  intro journal
  rw [Array.append_empty]
  rfl

theorem bind {lines' : List String} {outcome : Except Fault β} (h : lookup.Writes lines (.ok a))
    (hf : (f a).Writes lines' outcome) : (lookup >>= f).Writes (lines ++ lines') outcome := by
  intro journal
  rw [ExceptT.run_bind, StateT.run_bind, h journal]
  show (f a).run.run _ = _
  rw [hf, ← List.append_toArray, Array.append_assoc]

theorem bind_throw (h : lookup.Writes lines (.error fault)) :
    (lookup >>= f).Writes lines (.error fault) := by
  intro journal
  rw [ExceptT.run_bind, StateT.run_bind, h journal]
  rfl

theorem map {g : α → β} (h : lookup.Writes lines outcome) :
    (g <$> lookup).Writes lines (outcome.map g) := by
  rw [map_eq_pure_bind]
  cases outcome with
  | ok a =>
    rw [← List.append_nil lines]
    exact bind h (pure (g a))
  | error fault => exact bind_throw h

/-- A lookup that ends with a value ends with no other one. -/
theorem gives {before after : Journal} {b : α} (h : lookup.Writes lines (.ok a))
    (hgives : Gives lookup before b after) : b = a := by
  have hends := (h before).symm.trans hgives
  exact (Except.ok.inj (Prod.mk.inj hends).1).symm

end Lookup.Writes

theorem Lookup.note_writes (line : String) : (Lookup.note line).Writes [line] (.ok ⟨⟩) := by
  intro journal
  rw [← Array.push_eq_append]
  rfl

/-! ## Interceptors that record -/

/-- The interceptor of a name that notes its tag at each lookup, and hands the lookup on. -/
def ProviderInterceptor.recording (recorder : String × String) : ProviderInterceptor :=
  ⟨recorder.1, .record recorder.2⟩

/-- The interceptor of a name whose wrapper notes its tag at each search, and hands the search
    on. -/
def ResolverInterceptor.recording (recorder : String × String) : ResolverInterceptor :=
  ⟨recorder.1, .record recorder.2⟩

/-- What provider interceptors note when each of them runs once. -/
def lookupNotes (recorders : List (String × String)) (key : Key) : List String :=
  recorders.map fun recorder => "lookup " ++ recorder.2 ++ " " ++ key.render

/-- What the wrappers of resolver interceptors note when each of them runs once. -/
def findNotes (recorders : List (String × String)) (key : Key) : List String :=
  recorders.map fun recorder => "find " ++ recorder.2 ++ " " ++ key.render

section

variable {key : Key} {held : Option Provider} {lines : List String}

theorem Lookup.required_writes {search : Key → Lookup (Option Provider)}
    (h : (search key).Writes lines (.ok held)) :
    (required search key).Writes lines (held.elim (.error (.notProvided key)) .ok) := by
  rw [← List.append_nil lines]
  cases held with
  | some provider => exact h.bind (.pure provider)
  | none => exact h.bind (.throw _)

/-- A chain of interceptors that record runs each of them once, in order, and then the search. -/
theorem Lookup.chain_writes {search : Key → Lookup (Option Provider)}
    (h : (search key).Writes lines (.ok held)) (recorders : List (String × String)) :
    (chain search (recorders.map .recording) key).Writes (lookupNotes recorders key ++ lines)
      (held.elim (.error (.notProvided key)) .ok) := by
  induction recorders with
  | nil => exact required_writes h
  | cons first recorders ih =>
    have hanswer := (note_writes ("lookup " ++ first.2 ++ " " ++ key.render)).bind
      (f := fun _ => some <$> chain search (recorders.map .recording) key) ih.map
    cases held with
    | some provider =>
      rw [← List.append_nil (lookupNotes (first :: recorders) key ++ lines)]
      exact hanswer.bind (.pure provider)
    | none => exact hanswer.bind_throw

/-- Interceptors that record put one wrapper each around a resolver, the last one innermost. -/
theorem ResolverInterceptor.wrapAll_recording (inner : Resolver)
    (recorders : List (String × String)) :
    ∃ lines, (wrapAll inner (recorders.map .recording)).Writes lines
      (.ok (recorders.foldr (.recording ·.2) inner)) := by
  induction recorders with
  | nil => exact ⟨[], .pure inner⟩
  | cons first recorders ih =>
    obtain ⟨lines, hrest⟩ := ih
    have hwrap : ((recording first).wrap (recorders.foldr (.recording ·.2) inner)).Writes
        (["wrap " ++ first.2] ++ [])
        (.ok (some (.recording first.2 (recorders.foldr (.recording ·.2) inner)))) :=
      (Lookup.note_writes _).bind (.pure _)
    exact ⟨_, hrest.bind (hwrap.bind (.pure _))⟩

/-- Wrappers that record run once each, in order, and then the resolver they stand around. -/
theorem Resolver.find_foldr_recording {inner : Resolver}
    (h : (inner.find key).Writes lines (.ok held)) (recorders : List (String × String)) :
    ((recorders.foldr (.recording ·.2) inner).find key).Writes
      (findNotes recorders key ++ lines) (.ok held) := by
  induction recorders with
  | nil => exact h
  | cons first recorders ih => exact (Lookup.note_writes _).bind ih

end

/-! ## Lineages -/

namespace Injector

/-- How many registries of a lineage a search comes to: those up to the nearest one that holds the
    key, or all of them. -/
def reached (chain : List (InjectorId × Injector)) (key : Key) : Nat :=
  match chain.findIdx? (fun member => (member.2.registry.bindings.get? key).isSome) with
  | some levels => levels + 1
  | none => chain.length

theorem reached_cons (nearest : InjectorId × Injector)
    (ancestors : List (InjectorId × Injector)) (key : Key) :
    reached (nearest :: ancestors) key =
      if (nearest.2.registry.bindings.get? key).isSome then 1 else reached ancestors key + 1 := by
  unfold reached
  rw [List.findIdx?_cons]
  cases (nearest.2.registry.bindings.get? key).isSome with
  | true => rfl
  | false =>
    cases ancestors.findIdx? fun member => (member.2.registry.bindings.get? key).isSome with
    | some levels => rfl
    | none => rfl

variable {wrappers recorders : List (String × String)} {nearest : InjectorId × Injector}
  {ancestors : List (InjectorId × Injector)}

/-- What an injector wrapped is its own registry, with the wrappers around it. -/
theorem MadeFrom.inner_recording {providerInterceptors : List ProviderInterceptor}
    {fallback : Option Resolver} {injector : Injector}
    (h : injector.MadeFrom fallback (wrappers.map .recording) providerInterceptors) :
    injector.inner = wrappers.foldr (.recording ·.2)
      (.registry injector.registry.bindings fallback) := by
  obtain ⟨before, after, hwrap⟩ := h.wrapped
  obtain ⟨lines, hwrites⟩ :=
    ResolverInterceptor.wrapAll_recording injector.registry.resolver wrappers
  rw [hwrites.gives hwrap, Registry.resolver, h.parent_eq]

/-- A search passes all the wrappers once for each registry it comes to, and no more of them once it
    has come to one that holds the key. -/
theorem Lineage.inner_writes {providerInterceptors : List ProviderInterceptor}
    (h : Lineage (wrappers.map .recording) providerInterceptors (nearest :: ancestors))
    (key : Key) :
    (nearest.2.inner.find key).Writes
      (List.replicate (reached (nearest :: ancestors) key) (findNotes wrappers key)).flatten
      (.ok ((nearest :: ancestors).findSome? (·.2.registry.bindings.get? key))) := by
  induction ancestors generalizing nearest with
  | nil =>
    have hregistry : ((Resolver.registry nearest.2.registry.bindings none).find key).Writes []
        (.ok (nearest.2.registry.bindings.get? key)) := .pure _
    have hreached : reached [nearest] key = 1 := by
      rw [reached_cons]
      split <;> rfl
    rw [h.madeFrom.inner_recording, List.findSome?_singleton, hreached]
    exact Resolver.find_foldr_recording hregistry wrappers
  | cons parent ancestors ih =>
    have hparent := ih h.tail
    rw [h.madeFrom.inner_recording, List.findSome?_cons, reached_cons nearest]
    cases hget : nearest.2.registry.bindings.get? key with
    | some provider =>
      have hregistry : ((Resolver.registry nearest.2.registry.bindings
          (some parent.2.inner)).find key).Writes [] (.ok (some provider)) := by
        rw [Resolver.find, hget]
        exact .pure (some provider)
      exact Resolver.find_foldr_recording hregistry wrappers
    | none =>
      rw [if_neg (by simp), List.replicate_succ, List.flatten_cons]
      refine Resolver.find_foldr_recording ?_ wrappers
      rw [List.head?_cons, Option.map_some, Resolver.find, hget]
      exact hparent

/-- A demand from the last injector of a lineage runs the provider interceptors once each, in order,
    and then all the wrappers in order, once for each registry that the search comes to. -/
theorem Lineage.getProvider_writes
    (h : Lineage (wrappers.map .recording) (recorders.map .recording) (nearest :: ancestors))
    (key : Key) :
    ((nearest.2.resolver nearest.1).getProvider key).Writes
      (lookupNotes recorders key ++
        (List.replicate (reached (nearest :: ancestors) key) (findNotes wrappers key)).flatten)
      (((nearest :: ancestors).findSome? (·.2.registry.bindings.get? key)).elim
        (.error (.notProvided key)) .ok) := by
  rw [Injector.resolver, Resolver.getProvider, h.madeFrom.providerInterceptors_eq]
  exact Lookup.chain_writes (h.inner_writes key) recorders

end Injector

/-! ## Three generations -/

namespace Relay

def wrappers : List (String × String) := [("Recording", "outer"), ("Recording", "inner")]

def recorders : List (String × String) := [("Announcing", "first"), ("Announcing", "second")]

def first : Injector.Generation (wrappers.map .recording) (recorders.map .recording) :=
  .root .empty [.provider (.plain "A") (.text "root")] (by decide +kernel)

def second : Injector.Generation (wrappers.map .recording) (recorders.map .recording) :=
  first.child [.provider (.plain "A") (.text "child")] (by decide +kernel)

def third : Injector.Generation (wrappers.map .recording) (recorders.map .recording) :=
  second.child [] (by decide +kernel)

def grandchild : Injector := third.injector

set_option maxRecDepth 4000 in
/-- The search for one key ends at the parent; the search for the other one passes everything. -/
theorem grandchild_writes :
    ((grandchild.resolver 2).getProvider (.plain "A")).Writes
        ["lookup first A", "lookup second A", "find outer A", "find inner A", "find outer A",
          "find inner A"]
        (.ok (.text "child")) ∧
      ((grandchild.resolver 2).getProvider (.plain "B")).Writes
        ["lookup first B", "lookup second B", "find outer B", "find inner B", "find outer B",
          "find inner B", "find outer B", "find inner B"]
        (.error (.notProvided (.plain "B"))) := by
  have hlineage : Injector.Lineage _ _ ((2, grandchild) :: third.ancestors) := third.lineage
  exact ⟨hlineage.getProvider_writes (.plain "A"), hlineage.getProvider_writes (.plain "B")⟩

end Relay

end Injection
