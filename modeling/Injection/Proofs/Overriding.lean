/-
  Which provider an injector gives when interceptors answer for some keys.

  Interceptors that substitute providers see a lookup before any resolver does,
  and only those of the injector that is asked.  Interceptors that override
  stand around every registry of a lineage, so a lookup that goes on from child
  to parent passes the same overrides again and again.

  * `Resolver.find_foldr_overriding`, `Lookup.chain_substituting`: of several
    interceptors of a kind, the first one that holds the key answers;
  * `Injector.Lineage.find_inner`: the resolver of an injector finds a key in the
    overrides, or else in the nearest registry that holds it;
  * `Injector.Lineage.getProvider_eq`: the injector itself gives a substitute
    before both, and fails for a key that none of the three layers holds.
-/
import Injection.Proofs.AssociationList
import Injection.Proofs.KeyIdentity
import Injection.Proofs.Lineage

namespace Injection

/-! ## Overriding a resolver -/

/-- Interceptors that override wrap a resolver without a fault, the last one innermost. -/
theorem ResolverInterceptor.wrapAll_overriding (inner : Resolver) (overrides : List Bindings) :
    wrapAll inner (overrides.map overriding) = pure (overrides.foldr .overriding inner) := by
  induction overrides with
  | nil => rfl
  | cons first overrides ih =>
    rw [List.map_cons, wrapAll, ih]
    rfl

/-- Around a resolver, the first bindings that hold a key answer for it. -/
theorem Resolver.find_foldr_overriding (inner : Resolver) (overrides : List Bindings) (key : Key) :
    (overrides.foldr Resolver.overriding inner).find key =
      match overrides.findSome? (·.get? key) with
      | some provider => pure (some provider)
      | none => inner.find key := by
  induction overrides with
  | nil => rfl
  | cons first overrides ih =>
    rw [List.foldr_cons, find, List.findSome?_cons]
    cases first.get? key with
    | some provider => rfl
    | none => exact ih

/-! ## Substituting providers -/

/-- A lookup through interceptors that substitute providers ends at the first one that has a
    substitute, or else at the resolver. -/
theorem Lookup.chain_substituting (search : Key → Lookup (Option Provider))
    (substitutes : List Bindings) (key : Key) :
    chain search (substitutes.map .substituting) key =
      match substitutes.findSome? (·.get? key) with
      | some provider => pure provider
      | none => required search key := by
  induction substitutes with
  | nil => rfl
  | cons first substitutes ih =>
    rw [List.map_cons, chain, ProviderInterceptor.substituting, LookupRule.answer,
      List.findSome?_cons]
    cases first.get? key with
    | some provider => rfl
    | none =>
      -- a provider that the rest of the chain gives is handed on as it is
      rw [← ih]
      exact (bind_map_left _ _ _).trans (bind_pure _)

/-! ## Lineages -/

namespace Injector

variable {overrides : List Bindings} {providerInterceptors : List ProviderInterceptor}
  {nearest : InjectorId × Injector} {ancestors : List (InjectorId × Injector)}

/-- What an injector wrapped is its own registry, with the overrides around it. -/
theorem MadeFrom.inner_eq {fallback : Option Resolver} {injector : Injector}
    (h : injector.MadeFrom fallback (overrides.map .overriding) providerInterceptors) :
    injector.inner =
      overrides.foldr .overriding (.registry injector.registry.bindings fallback) := by
  obtain ⟨before, after, hwrap⟩ := h.wrapped
  rw [ResolverInterceptor.wrapAll_overriding] at hwrap
  rw [(Gives.pure_inv hwrap).1, Registry.resolver, h.parent_eq]

/-- What an injector wrapped finds a key in the first overrides that hold it, or else in the nearest
    registry of the lineage that does. -/
theorem Lineage.find_inner
    (h : Lineage (overrides.map .overriding) providerInterceptors (nearest :: ancestors))
    (key : Key) :
    nearest.2.inner.find key = pure ((overrides.findSome? (·.get? key)).or
      ((nearest :: ancestors).findSome? (·.2.registry.bindings.get? key))) := by
  induction ancestors generalizing nearest with
  | nil =>
    rw [h.madeFrom.inner_eq, Resolver.find_foldr_overriding]
    cases overrides.findSome? (·.get? key) with
    | some provider => rfl
    | none =>
      show pure (nearest.2.registry.bindings.get? key) = _
      rw [List.findSome?_singleton, Option.none_or]
  | cons parent ancestors ih =>
    have hparent := ih h.tail
    rw [h.madeFrom.inner_eq, Resolver.find_foldr_overriding, List.findSome?_cons]
    cases hoverrides : overrides.findSome? (·.get? key) with
    | some provider => rfl
    | none =>
      rw [hoverrides] at hparent
      rw [List.head?_cons, Option.map_some, Resolver.find]
      cases nearest.2.registry.bindings.get? key with
      | some provider => rfl
      | none => exact hparent

/-- The provider that the last injector of a lineage gives for a key: the first substitute for it,
    or else the one in the first overrides that hold the key, or else the one in the nearest
    registry that does.  If there is none, the key is not provided. -/
theorem Lineage.getProvider_eq {substitutes : List (List (Key × Provider))}
    (h : Lineage (overrides.map .overriding)
      (substitutes.map fun pairs => .substituting (.ofPairs pairs)) (nearest :: ancestors))
    (key : Key) :
    (nearest.2.resolver nearest.1).getProvider key =
      match (substitutes.findSome? (·.lookup key)).or ((overrides.findSome? (·.get? key)).or
        ((nearest :: ancestors).findSome? (·.2.registry.bindings.get? key))) with
      | some provider => pure provider
      | none => throw (.notProvided key) := by
  have hsubstitutes : (substitutes.map SlotTable.ofPairs).findSome? (·.get? key) =
      substitutes.findSome? (·.lookup key) := by
    rw [List.findSome?_map]
    exact congrArg (List.findSome? · substitutes)
      (funext fun pairs => SlotTable.get?_ofPairs pairs key)
  have hchain : substitutes.map (fun pairs => ProviderInterceptor.substituting (.ofPairs pairs)) =
      (substitutes.map SlotTable.ofPairs).map .substituting := by
    simp only [List.map_map, Function.comp_def]
  rw [Injector.resolver, Resolver.getProvider, h.madeFrom.providerInterceptors_eq, hchain,
    Lookup.chain_substituting, hsubstitutes]
  cases substitutes.findSome? (·.lookup key) with
  | some provider => rfl
  | none =>
    show Lookup.required nearest.2.inner.find key = _
    rw [Lookup.required, h.find_inner]
    cases (overrides.findSome? (·.get? key)).or
        ((nearest :: ancestors).findSome? (·.2.registry.bindings.get? key)) with
    | some provider => rfl
    | none => rfl

end Injector

/-! ## A child and its root -/

namespace Layers

def overrides : List Bindings :=
  [.ofPairs [(.plain "A", .text "first override")],
    .ofPairs [(.plain "A", .text "second override"), (.plain "B", .text "second override")]]

def substitutes : List (List (Key × Provider)) :=
  [[(.plain "C", .text "first substitute"), (.plain "C", .text "second substitute")],
    [(.plain "B", .text "substitute")]]

def first : Injector.Generation (overrides.map .overriding)
    (substitutes.map fun pairs => .substituting (.ofPairs pairs)) :=
  .root .empty [.provider (.plain "A") (.text "root"), .provider (.plain "D") (.text "root"),
    .provider (.plain "E") (.text "root")] (by decide +kernel)

def second : Injector.Generation (overrides.map .overriding)
    (substitutes.map fun pairs => .substituting (.ofPairs pairs)) :=
  first.child [.provider (.plain "C") (.text "child"), .provider (.plain "D") (.text "child")]
    (by decide +kernel)

def child : Injector := second.injector

set_option maxRecDepth 4000 in
/-- Four keys are held in two places or more, one in the root alone, and one nowhere. -/
theorem child_gives :
    ["A", "B", "C", "D", "E", "F"].map (fun name => (child.resolver 1).getProvider (.plain name)) =
      [pure (.text "first override"), pure (.text "substitute"), pure (.text "first substitute"),
        pure (.text "child"), pure (.text "root"), throw (.notProvided (.plain "F"))] := by
  have hlineage : Injector.Lineage _ _ ((1, child) :: second.ancestors) := second.lineage
  simp only [List.map_cons, List.map_nil, hlineage.getProvider_eq]
  rfl

end Layers

end Injection
