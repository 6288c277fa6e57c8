/-
  The providers that lookups can end at.

  A lookup goes from resolver to resolver, and interceptors may answer it, hand
  it on, or hand on another key.  Whatever they do, the provider it ends at is
  held somewhere on the way.

  * `Resolver.Holds`: the providers held by a resolver, by those it asks and by
    its interceptors;
  * `Resolver.find_holds`, `Resolver.getProvider_holds`: no lookup gives another
    provider;
  * `Injector.Lineage.provided`: what an injector holds is registered in it or in
    one of its ancestors, or one of its interceptors supplies it.
-/
import Injection.Proofs.Lineage

namespace Injection

def Bindings.Has (bindings : Bindings) (provider : Provider) : Prop :=
  ∃ key, bindings.get? key = some provider

theorem Bindings.Has.mem_values {bindings : Bindings} {provider : Provider}
    (h : Bindings.Has bindings provider) (hwf : bindings.WellFormed) :
    provider ∈ bindings.toList.map (·.2) := by
  obtain ⟨key, hget⟩ := h
  obtain ⟨_, hpair, -⟩ := hwf.get?_eq_some_iff.1 hget
  exact List.mem_map_of_mem hpair

/-- A rule answers with a provider of its own. -/
def LookupRule.Supplies (rule : LookupRule) (provider : Provider) : Prop :=
  match rule with
  | .substitute providers => Bindings.Has providers provider
  | .replace _ own => provider = own
  | .record _ | .silence _ | .fail _ _ | .redirect _ _ | .bypass _ => False

/-- A wrapping adds a provider of its own. -/
def Wrapping.Supplies (wrapping : Wrapping) (provider : Provider) : Prop :=
  match wrapping with
  | .override overrides => Bindings.Has overrides provider
  | .record _ | .keep | .refuse => False

/-- A resolver holds a provider itself, asks one that holds it, or has an interceptor that answers
    with it. -/
def Resolver.Holds : Resolver → Provider → Prop
  | .registry bindings none, provider => Bindings.Has bindings provider
  | .registry bindings (some parent), provider =>
    Bindings.Has bindings provider ∨ parent.Holds provider
  | .overriding overrides inner, provider =>
    Bindings.Has overrides provider ∨ inner.Holds provider
  | .recording _ inner, provider => inner.Holds provider
  | .injector _ interceptors inner, provider =>
    (∃ interceptor ∈ interceptors, interceptor.rule.Supplies provider) ∨ inner.Holds provider

/-! ## Lookups -/

section

variable {search : Key → Lookup (Option Provider)} {key : Key} {provider : Provider}
  {journal journal' : Journal} {P : Provider → Prop}

theorem Lookup.required_holds
    (hsearch : ∀ {key journal provider journal'},
      Gives (search key) journal (some provider) journal' → P provider)
    (h : Gives (required search key) journal provider journal') : P provider := by
  obtain ⟨found, between, hfound, h⟩ := Gives.bind_inv h
  cases found with
  | some found =>
    obtain ⟨rfl, -⟩ := Gives.pure_inv h
    exact hsearch hfound
  | none => exact (Gives.throw_inv h).elim

/-- A rule answers with a provider of its own, or with what the rest of the chain or the resolver
    gives, perhaps for another key. -/
theorem LookupRule.answer_holds {rule : LookupRule} {proceed : Key → Lookup Provider}
    (hsupplies : ∀ provider, rule.Supplies provider → P provider)
    (hproceed : ∀ {key journal provider journal'},
      Gives (proceed key) journal provider journal' → P provider)
    (hsearch : ∀ {key journal provider journal'},
      Gives (search key) journal (some provider) journal' → P provider)
    (h : Gives (rule.answer proceed search key) journal (some provider) journal') :
    P provider := by
  have hhands : ∀ {key journal},
      Gives (some <$> proceed key) journal (some provider) journal' → P provider := by
    intro key journal h
    obtain ⟨given, hgiven, hsome⟩ := Gives.map_inv h
    obtain rfl := Option.some.inj hsome
    exact hproceed hgiven
  cases rule with
  | record tag =>
    obtain ⟨_, between, -, h⟩ := Gives.bind_inv h
    exact hhands h
  | substitute providers =>
    rw [answer] at h
    split at h
    · next own hown =>
      obtain ⟨hsome, -⟩ := Gives.pure_inv h
      obtain rfl := Option.some.inj hsome
      exact hsupplies _ ⟨key, hown⟩
    · exact hhands h
  | silence only =>
    cases only with
    | none => cases (Gives.pure_inv h).1
    | some only =>
      rw [answer] at h
      split at h
      · cases (Gives.pure_inv h).1
      · exact hhands h
  | fail only fault =>
    rw [answer] at h
    split at h
    · exact (Gives.throw_inv h).elim
    · exact hhands h
  | redirect only target => exact hhands h
  | bypass only =>
    rw [answer] at h
    split at h
    · exact hsearch h
    · exact hhands h
  | replace only own =>
    rw [answer] at h
    split at h
    · obtain ⟨_, between, -, h⟩ := Gives.bind_inv h
      obtain ⟨hsome, -⟩ := Gives.pure_inv h
      exact hsupplies _ (Option.some.inj hsome)
    · exact hhands h

theorem Lookup.chain_holds {interceptors : List ProviderInterceptor}
    (hsupplies : ∀ interceptor ∈ interceptors, ∀ provider,
      interceptor.rule.Supplies provider → P provider)
    (hsearch : ∀ {key journal provider journal'},
      Gives (search key) journal (some provider) journal' → P provider)
    (h : Gives (chain search interceptors key) journal provider journal') : P provider := by
  induction interceptors generalizing key journal provider journal' with
  | nil => exact required_holds hsearch h
  | cons interceptor rest ih =>
    obtain ⟨answer, between, hanswer, h⟩ := Gives.bind_inv h
    cases answer with
    | some given =>
      obtain ⟨rfl, -⟩ := Gives.pure_inv h
      refine LookupRule.answer_holds (hsupplies interceptor List.mem_cons_self) (ih ?_) hsearch
        hanswer
      exact fun other hmem => hsupplies other (List.mem_cons_of_mem _ hmem)
    | none => exact (Gives.throw_inv h).elim

/-- What comes of a chain as a search is what the chain gave. -/
theorem Lookup.settle_inv {lookup : Lookup Provider}
    (h : Gives (settle key lookup) journal (some provider) journal') :
    ∃ between, Gives lookup journal provider between := by
  obtain ⟨outcome, between, houtcome, h⟩ := Gives.bind_inv h
  have hlookup := Gives.lift_inv houtcome
  cases outcome with
  | ok given =>
    obtain ⟨hsome, -⟩ := Gives.pure_inv h
    obtain rfl := Option.some.inj hsome
    exact ⟨between, hlookup⟩
  | error fault =>
    -- a fault is a miss, or stands
    cases fault with
    | notProvided missing =>
      dsimp only at h
      split at h
      · cases (Gives.pure_inv h).1
      · obtain ⟨_, _, -, h⟩ := Gives.bind_inv h
        exact (Gives.throw_inv h).elim
    | _ =>
      obtain ⟨_, _, -, h⟩ := Gives.bind_inv h
      exact (Gives.throw_inv h).elim

end

theorem Resolver.find_holds : ∀ {resolver : Resolver} {key : Key} {provider : Provider}
    {journal journal' : Journal},
    Gives (resolver.find key) journal (some provider) journal' → resolver.Holds provider
  | .registry bindings none, key, _, _, _, h => ⟨key, (Gives.pure_inv h).1.symm⟩
  | .registry bindings (some parent), key, _, _, _, h => by
    rw [find] at h
    split at h
    · next own hown =>
      obtain ⟨hsome, -⟩ := Gives.pure_inv h
      obtain rfl := Option.some.inj hsome
      exact .inl ⟨key, hown⟩
    · exact .inr (find_holds h)
  | .overriding overrides inner, key, _, _, _, h => by
    rw [find] at h
    split at h
    · next own hown =>
      obtain ⟨hsome, -⟩ := Gives.pure_inv h
      obtain rfl := Option.some.inj hsome
      exact .inl ⟨key, hown⟩
    · exact .inr (find_holds h)
  | .recording tag inner, key, _, _, _, h => by
    obtain ⟨_, between, -, h⟩ := Gives.bind_inv h
    have hinner : inner.Holds _ := find_holds h
    exact hinner
  | .injector _ [] inner, key, _, _, _, h => by
    have hinner : inner.Holds _ := find_holds h
    exact .inr hinner
  | .injector id (first :: others) inner, key, provider, _, _, h => by
    obtain ⟨between, h⟩ := Lookup.settle_inv h
    refine Lookup.chain_holds (P := (injector id (first :: others) inner).Holds) ?_ ?_ h
    · exact fun interceptor hmem _ hsupplies => .inl ⟨interceptor, hmem, hsupplies⟩
    · exact fun hfound => .inr (find_holds hfound)

/-- A lookup gives no provider that the resolver does not hold. -/
theorem Resolver.getProvider_holds {resolver : Resolver} {key : Key} {provider : Provider}
    {journal journal' : Journal}
    (h : Gives (resolver.getProvider key) journal provider journal') :
    resolver.Holds provider := by
  cases resolver with
  | injector id interceptors inner =>
    refine Lookup.chain_holds (P := (injector id interceptors inner).Holds) ?_ ?_ h
    · exact fun interceptor hmem _ hsupplies => .inl ⟨interceptor, hmem, hsupplies⟩
    · exact fun hfound => .inr (find_holds hfound)
  | registry | overriding | recording => exact Lookup.required_holds find_holds h

/-! ## Injectors -/

namespace ResolverInterceptor

variable {inner outer : Resolver} {provider : Provider} {journal journal' : Journal}

theorem wrap_holds {interceptor : ResolverInterceptor}
    (h : Gives (interceptor.wrap inner) journal (some outer) journal')
    (hholds : outer.Holds provider) :
    interceptor.wrapping.Supplies provider ∨ inner.Holds provider := by
  obtain ⟨name, wrapping⟩ := interceptor
  cases wrapping with
  | override overrides =>
    obtain rfl := Option.some.inj (Gives.pure_inv h).1
    exact hholds
  | record tag =>
    obtain ⟨_, between, -, h⟩ := Gives.bind_inv h
    obtain rfl := Option.some.inj (Gives.pure_inv h).1
    exact .inr hholds
  | keep =>
    obtain rfl := Option.some.inj (Gives.pure_inv h).1
    exact .inr hholds
  | refuse => cases (Gives.pure_inv h).1

/-- What wraps a resolver adds the providers of the interceptors. -/
theorem wrapAll_holds {interceptors : List ResolverInterceptor}
    (h : Gives (wrapAll inner interceptors) journal outer journal')
    (hholds : outer.Holds provider) :
    (∃ interceptor ∈ interceptors, interceptor.wrapping.Supplies provider) ∨
      inner.Holds provider := by
  induction interceptors generalizing outer journal journal' with
  | nil =>
    rw [(Gives.pure_inv h).1] at hholds
    exact .inr hholds
  | cons interceptor rest ih =>
    obtain ⟨wrapped, between, hrest, h⟩ := Gives.bind_inv h
    obtain ⟨result, between', hwrap, h⟩ := Gives.bind_inv h
    cases result with
    | none => exact (Gives.throw_inv h).elim
    | some resolver =>
      obtain ⟨rfl, -⟩ := Gives.pure_inv h
      rcases wrap_holds hwrap hholds with hsupplies | hholds
      · exact .inl ⟨interceptor, List.mem_cons_self, hsupplies⟩
      · rcases ih hrest hholds with ⟨other, hmem, hsupplies⟩ | hholds
        · exact .inl ⟨other, List.mem_cons_of_mem _ hmem, hsupplies⟩
        · exact .inr hholds

end ResolverInterceptor

namespace Injector

variable {resolverInterceptors : List ResolverInterceptor}
  {providerInterceptors : List ProviderInterceptor} {chain : List (InjectorId × Injector)}
  {provider : Provider}

/-- A provider is registered in an injector of a chain, or one of the interceptors supplies it. -/
def Provided (resolverInterceptors : List ResolverInterceptor)
    (providerInterceptors : List ProviderInterceptor) (chain : List (InjectorId × Injector))
    (provider : Provider) : Prop :=
  (∃ member ∈ chain, Bindings.Has member.2.registry.bindings provider) ∨
    (∃ interceptor ∈ resolverInterceptors, interceptor.wrapping.Supplies provider) ∨
    ∃ interceptor ∈ providerInterceptors, interceptor.rule.Supplies provider

theorem Provided.cons {member : InjectorId × Injector}
    (h : Provided resolverInterceptors providerInterceptors chain provider) :
    Provided resolverInterceptors providerInterceptors (member :: chain) provider :=
  h.imp_left fun ⟨other, hmem, hhas⟩ => ⟨other, List.mem_cons_of_mem _ hmem, hhas⟩

variable {nearest : InjectorId × Injector} {ancestors : List (InjectorId × Injector)}

/-- What an injector wrapped holds what is registered in it or in its ancestors, and what the
    resolver interceptors supply. -/
theorem Lineage.inner_provided
    (h : Lineage resolverInterceptors providerInterceptors (nearest :: ancestors))
    (hholds : nearest.2.inner.Holds provider) :
    Provided resolverInterceptors providerInterceptors (nearest :: ancestors) provider := by
  induction ancestors generalizing nearest with
  | nil =>
    obtain ⟨before, after, hwrap⟩ := h.madeFrom.wrapped
    rw [Registry.resolver, h.madeFrom.parent_eq] at hwrap
    rcases ResolverInterceptor.wrapAll_holds hwrap hholds with hsupplies | hhas
    · exact .inr (.inl hsupplies)
    · exact .inl ⟨nearest, List.mem_cons_self, hhas⟩
  | cons parent ancestors ih =>
    obtain ⟨before, after, hwrap⟩ := h.madeFrom.wrapped
    rw [Registry.resolver, h.madeFrom.parent_eq] at hwrap
    rcases ResolverInterceptor.wrapAll_holds hwrap hholds with hsupplies | hhas | hparent
    · exact .inr (.inl hsupplies)
    · exact .inl ⟨nearest, List.mem_cons_self, hhas⟩
    · exact (ih h.tail hparent).cons

/-- An injector holds what is registered in it or in its ancestors, and what the interceptors
    supply. -/
theorem Lineage.provided
    (h : Lineage resolverInterceptors providerInterceptors (nearest :: ancestors))
    (hholds : (nearest.2.resolver nearest.1).Holds provider) :
    Provided resolverInterceptors providerInterceptors (nearest :: ancestors) provider := by
  rcases hholds with hsupplies | hinner
  · rw [h.madeFrom.providerInterceptors_eq] at hsupplies
    exact .inr (.inr hsupplies)
  · exact h.inner_provided hinner

/-- A resolver is that of an injector of a chain. -/
def Own (chain : List (InjectorId × Injector)) (resolver : Resolver) : Prop :=
  ∃ member ∈ chain, resolver = member.2.resolver member.1

theorem Lineage.provided_of_own {resolver : Resolver}
    (h : Lineage resolverInterceptors providerInterceptors (nearest :: ancestors))
    (hown : Own (nearest :: ancestors) resolver) (hholds : resolver.Holds provider) :
    Provided resolverInterceptors providerInterceptors (nearest :: ancestors) provider := by
  induction ancestors generalizing nearest with
  | nil =>
    obtain ⟨member, hmem, rfl⟩ := hown
    obtain rfl := List.mem_singleton.1 hmem
    exact h.provided hholds
  | cons parent ancestors ih =>
    obtain ⟨member, hmem, rfl⟩ := hown
    rcases List.mem_cons.1 hmem with rfl | hmem
    · exact h.provided hholds
    · exact (ih h.tail ⟨member, hmem, rfl⟩).cons

theorem Lineage.mem_values {id : InjectorId} {injector : Injector}
    (h : Lineage resolverInterceptors providerInterceptors ((id, injector) :: ancestors))
    (hhas : Bindings.Has injector.registry.bindings provider) :
    provider ∈ injector.registry.bindings.toList.map (·.2) :=
  hhas.mem_values h.providesItself.wf

/-- Without interceptors, a root provides what is registered in it. -/
theorem Lineage.mem_values_of_provided {id : InjectorId} {root : Injector}
    (h : Lineage [] [] [(id, root)]) (hprovided : Provided [] [] [(id, root)] provider) :
    provider ∈ root.registry.bindings.toList.map (·.2) := by
  rcases hprovided with ⟨member, hmem, hhas⟩ | ⟨_, hmem, -⟩ | ⟨_, hmem, -⟩
  · obtain rfl := List.mem_singleton.1 hmem
    exact h.mem_values hhas
  · cases hmem
  · cases hmem

end Injector

end Injection
