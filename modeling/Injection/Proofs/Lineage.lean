/-
  How injectors come to be, and chains of them.

  * `Injector.MadeFrom`, `Injector.ProvidesItself`: an injector as its creation
    leaves it, whatever its component registered;
  * `Injector.create_gives`, `Injector.create_alive`: a creation that succeeds
    adds one injector, which is alive, and changes no other;
  * `Injector.Lineage`: an injector, its parent, and so on up to a root;
  * `Injector.Lineage.madeFrom`: every injector of a lineage wraps a registry of
    its own, which asks what its parent wrapped.
-/
import Injection.Container.Configuration
import Injection.Proofs.AssociationList
import Injection.Proofs.Effects
import Injection.Proofs.KeyIdentity

namespace Injection

open Run (Spares)

/-! ## Configuring a registry -/

theorem Template.realise_spares (template : Template) :
    (template.realise World.nextSerial).Spares := by
  cases template with
  | object type label => exact .bind (.modifyGet fun _ => rfl) fun serial => .pure _
  | text | integer | flag => exact .pure _

namespace Registry

variable {registry registry' : Registry}

/-- A registration that succeeds adds to the registry's own bindings. -/
theorem register_gives {key : Key} {provider : Provider} {journal journal' : Journal}
    (h : Gives (registry.register key provider) journal registry' journal') :
    registry.bindings.insert key provider = (registry'.bindings, none) ∧
      registry'.parent = registry.parent := by
  obtain ⟨_, between, -, hinsert⟩ := Gives.bind_inv h
  split at hinsert
  · next bindings heq =>
    obtain ⟨rfl, -⟩ := Gives.pure_inv hinsert
    exact ⟨heq, rfl⟩
  · exact (Gives.throw_inv hinsert).elim

theorem carryOut_spares (depth : Nat) (registry : Registry) (entry : Entry) :
    (registry.carryOut depth entry).Spares := by
  cases entry with
  | value key template => exact .bind template.realise_spares fun value => .lookup _
  | provider key provider => exact .lookup _
  | resolve key =>
    exact .bind (registry.resolver.getInstance_spares depth key) fun _ => .pure registry

/-- A registry after registrations that succeeded asks whom it asked before, and holds what it
    held. -/
structure Grows (before after : Registry) : Prop where
  parent_eq : after.parent = before.parent
  wf : before.bindings.WellFormed → after.bindings.WellFormed
  get?_eq : before.bindings.WellFormed → ∀ {key provider},
    before.bindings.get? key = some provider → after.bindings.get? key = some provider

theorem Grows.refl (registry : Registry) : registry.Grows registry := ⟨rfl, id, fun _ => id⟩

theorem Grows.trans {between : Registry} (h : registry.Grows between)
    (h' : between.Grows registry') : registry.Grows registry' :=
  ⟨h'.parent_eq.trans h.parent_eq, fun hwf => h'.wf (h.wf hwf),
    fun hwf _ _ hget => h'.get?_eq (h.wf hwf) (h.get?_eq hwf hget)⟩

theorem register_grows {key : Key} {provider : Provider} {journal journal' : Journal}
    (h : Gives (registry.register key provider) journal registry' journal') :
    registry.Grows registry' := by
  obtain ⟨hinsert, hparent⟩ := register_gives h
  have hbindings : registry'.bindings = registry.bindings.insertNew key provider := by
    rw [SlotTable.insertNew, hinsert]
  refine ⟨hparent, fun hwf => ?_, fun hwf key' provider' hget => ?_⟩
  · rw [hbindings]
    exact hwf.insertNew key provider
  · rw [hbindings, hwf.get?_insertNew_or, hget, Option.some_or]

/-- No entry of a component changes whom the registry asks. -/
theorem carryOut_grows {depth : Nat} {entry : Entry} {world world' : World}
    (h : Gives (registry.carryOut depth entry) world registry' world') :
    registry.Grows registry' := by
  cases entry with
  | value key template =>
    obtain ⟨value, between, -, hregister⟩ := Gives.bind_inv h
    obtain ⟨journal, hregister, -⟩ := Gives.lookup_inv hregister
    exact register_grows hregister
  | provider key provider =>
    have hlookup : Gives (Run.lookup (registry.register key provider)) world registry' world' := h
    obtain ⟨journal, hregister, -⟩ := Gives.lookup_inv hlookup
    exact register_grows hregister
  | resolve key =>
    obtain ⟨value, between, -, hpure⟩ := Gives.bind_inv h
    rw [(Gives.pure_inv hpure).1]
    exact .refl registry

theorem configure_spares (depth : Nat) (component : List Entry) (registry : Registry) :
    (registry.configure depth component).Spares := by
  induction component generalizing registry with
  | nil => exact .pure registry
  | cons entry component ih =>
    rw [configure, List.foldlM_cons]
    exact .bind (carryOut_spares depth registry entry) ih

theorem configure_grows {depth : Nat} {component : List Entry} {world world' : World}
    (h : Gives (registry.configure depth component) world registry' world') :
    registry.Grows registry' := by
  induction component generalizing registry world with
  | nil =>
    rw [(Gives.pure_inv h).1]
    exact .refl registry
  | cons entry component ih =>
    rw [configure, List.foldlM_cons] at h
    obtain ⟨between, middle, hentry, hrest⟩ := Gives.bind_inv h
    exact (carryOut_grows hentry).trans (ih hrest)

end Registry

/-! ## Making an injector -/

theorem World.newInjector_gives {world world' : World} {id : InjectorId}
    (h : Gives World.newInjector world id world') :
    id = world.injectors.size ∧ world'.injectors = world.injectors.push .pending := by
  obtain ⟨rfl, rfl⟩ := Gives.modifyGet_inv h
  exact ⟨rfl, rfl⟩

theorem World.setInjector_gives {world world' : World} {id : InjectorId} {slot : InjectorSlot}
    (h : Gives (World.setInjector id slot) world ⟨⟩ world') :
    world'.injectors = world.injectors.setIfInBounds id slot := by
  obtain ⟨-, rfl⟩ := Prod.mk.inj h
  rfl

namespace Injector

variable {resolverInterceptors : List ResolverInterceptor}
  {providerInterceptors : List ProviderInterceptor} {world world' : World}

/-- An injector whose registry asks `fallback`, and is wrapped by the resolver interceptors. -/
structure MadeFrom (fallback : Option Resolver) (resolverInterceptors : List ResolverInterceptor)
    (providerInterceptors : List ProviderInterceptor) (injector : Injector) : Prop where
  parent_eq : injector.registry.parent = fallback
  wrapped : ∃ before after, Gives (ResolverInterceptor.wrapAll injector.registry.resolver
    resolverInterceptors) before injector.inner after
  resolverInterceptors_eq : injector.resolverInterceptors = resolverInterceptors
  providerInterceptors_eq : injector.providerInterceptors = providerInterceptors

/-- An injector that holds itself, under its number. -/
structure ProvidesItself (id : InjectorId) (injector : Injector) : Prop where
  wf : injector.registry.bindings.WellFormed
  self : injector.registry.bindings.get? .injector = some (.self id)

theorem configure_gives {depth : Nat} {id id' : InjectorId} {fallback : Option Resolver}
    {parent : Option InjectorId} {component : List Entry}
    (h : Gives (configure depth id (.empty fallback) parent resolverInterceptors
      providerInterceptors component) world id' world') :
    id' = id ∧ ∃ injector,
      injector.MadeFrom fallback resolverInterceptors providerInterceptors ∧
        injector.ProvidesItself id ∧
        world'.injectors = world.injectors.setIfInBounds id (.live injector) := by
  obtain ⟨registered, world₁, hregister, h⟩ := Gives.bind_inv h
  obtain ⟨configured, world₂, hconfigure, h⟩ := Gives.bind_inv h
  obtain ⟨inner, world₃, hwrap, h⟩ := Gives.bind_inv h
  obtain ⟨_, world₄, hreport, h⟩ := Gives.bind_inv h
  obtain ⟨_, world₅, hset, h⟩ := Gives.bind_inv h
  obtain ⟨rfl, rfl⟩ := Gives.pure_inv h
  have hinjectors : world₄.injectors = world.injectors := by
    rw [(Spares.lookup _).injectors hreport, (Spares.lookup _).injectors hwrap,
      (Registry.configure_spares depth component registered).injectors hconfigure,
      (Spares.lookup _).injectors hregister]
  obtain ⟨journal, hregister, -⟩ := Gives.lookup_inv hregister
  obtain ⟨journal', hwrap, -⟩ := Gives.lookup_inv hwrap
  have hregistered := Registry.register_grows hregister
  have hconfigured := Registry.configure_grows hconfigure
  have hself : registered.bindings.get? .injector = some (.self id') := by
    have hbindings : registered.bindings = SlotTable.empty.insertNew .injector (.self id') := by
      rw [SlotTable.insertNew]
      exact (congrArg Prod.fst (Registry.register_gives hregister).1).symm
    rw [hbindings, SlotTable.WellFormed.empty.get?_insertNew (SlotTable.contains_empty _),
      if_pos BEq.rfl]
  have hwf := hregistered.wf .empty
  refine ⟨rfl, ⟨configured, inner, parent, resolverInterceptors, providerInterceptors⟩,
    ⟨(hregistered.trans hconfigured).parent_eq, ⟨_, _, hwrap⟩, rfl, rfl⟩,
    ⟨hconfigured.wf hwf, hconfigured.get?_eq hwf hself⟩, ?_⟩
  rw [World.setInjector_gives hset, hinjectors]

/-- A creation that succeeds adds an injector, and leaves all others as they were. -/
theorem create_gives {depth : Nat} {id : InjectorId} {fallback : Option Resolver}
    {parent : Option InjectorId} {component : List Entry}
    (h : Gives (create depth (.empty fallback) parent resolverInterceptors providerInterceptors
      component) world id world') :
    id = world.injectors.size ∧ ∃ injector,
      injector.MadeFrom fallback resolverInterceptors providerInterceptors ∧
        injector.ProvidesItself id ∧
        world'.injectors = world.injectors.push (.live injector) := by
  obtain ⟨reserved, world₁, hreserve, h⟩ := Gives.bind_inv h
  obtain ⟨rfl, hpending⟩ := World.newInjector_gives hreserve
  obtain ⟨outcome, world₂, hending, h⟩ := Gives.bind_inv h
  have hconfigure := Gives.ending_inv hending
  cases outcome with
  | error stop =>
    obtain ⟨_, world₃, -, hthrow⟩ := Gives.bind_inv h
    exact (Gives.throw_inv hthrow).elim
  | ok made =>
    obtain ⟨rfl, rfl⟩ := Gives.pure_inv h
    obtain ⟨rfl, injector, hmade, hitself, hinjectors⟩ := configure_gives hconfigure
    refine ⟨rfl, injector, hmade, hitself, ?_⟩
    rw [hinjectors, hpending]
    -- the place that was taken for the injector is the last one
    apply Array.ext_getElem?
    intro i
    rw [Array.getElem?_setIfInBounds, Array.getElem?_push, Array.getElem?_push]
    by_cases hi : i = world.injectors.size
    · simp [hi]
    · simp [hi, Ne.symm hi]

/-- The injector that a creation has added is alive under its number. -/
theorem create_alive {depth : Nat} {id : InjectorId} {fallback : Option Resolver}
    {parent : Option InjectorId} {component : List Entry}
    (h : Gives (create depth (.empty fallback) parent resolverInterceptors providerInterceptors
      component) world id world') :
    ∃ injector, world'.injector? id = some injector ∧
      injector.MadeFrom fallback resolverInterceptors providerInterceptors ∧
        injector.ProvidesItself id := by
  obtain ⟨rfl, injector, hmade, hitself, hinjectors⟩ := create_gives h
  refine ⟨injector, ?_, hmade, hitself⟩
  rw [World.injector?, hinjectors, Array.getElem?_push_size]

theorem made_of_create {depth : Nat} {id : InjectorId} {fallback : Option Resolver}
    {parent : Option InjectorId} {component : List Entry} {injector : Injector}
    (h : Gives (create depth (.empty fallback) parent resolverInterceptors providerInterceptors
      component) world id world') (hlive : world'.injector? id = some injector) :
    injector.MadeFrom fallback resolverInterceptors providerInterceptors ∧
      injector.ProvidesItself id := by
  obtain ⟨added, halive, hmade⟩ := create_alive h
  obtain rfl := Option.some.inj (halive.symm.trans hlive)
  exact hmade

/-! ## Lineages -/

/-- An injector, its parent, and so on up to a root: each with its number, and each from a creation
    that succeeded, in any world and with any component. -/
inductive Lineage (resolverInterceptors : List ResolverInterceptor)
    (providerInterceptors : List ProviderInterceptor) : List (InjectorId × Injector) → Prop
  | root {depth component world world' id injector} :
    Gives (createRoot depth resolverInterceptors providerInterceptors component) world id world' →
    world'.injector? id = some injector →
    Lineage resolverInterceptors providerInterceptors [(id, injector)]
  | child {parentId parent ancestors depth component world world' id injector} :
    Lineage resolverInterceptors providerInterceptors ((parentId, parent) :: ancestors) →
    Gives (createChild depth parentId parent component) world id world' →
    world'.injector? id = some injector →
    Lineage resolverInterceptors providerInterceptors
      ((id, injector) :: (parentId, parent) :: ancestors)

/-- The parent of an injector has a lineage of its own. -/
theorem Lineage.tail {nearest parent : InjectorId × Injector}
    {ancestors : List (InjectorId × Injector)}
    (h : Lineage resolverInterceptors providerInterceptors (nearest :: parent :: ancestors)) :
    Lineage resolverInterceptors providerInterceptors (parent :: ancestors) := by
  cases h with
  | child hparent => exact hparent

/-- The registry of an injector asks what the next injector of the lineage wrapped, and all of them
    have the interceptors of the root. -/
theorem Lineage.madeFrom {nearest : InjectorId × Injector}
    {ancestors : List (InjectorId × Injector)}
    (h : Lineage resolverInterceptors providerInterceptors (nearest :: ancestors)) :
    nearest.2.MadeFrom (ancestors.head?.map (·.2.inner)) resolverInterceptors
      providerInterceptors := by
  generalize hchain : nearest :: ancestors = chain at h
  induction h generalizing nearest ancestors with
  | root hgives hlive =>
    obtain ⟨rfl, rfl⟩ := List.cons.inj hchain
    exact (made_of_create hgives hlive).1
  | child _ hgives hlive ih =>
    obtain ⟨rfl, rfl⟩ := List.cons.inj hchain
    have hparent := ih rfl
    rw [createChild, hparent.resolverInterceptors_eq, hparent.providerInterceptors_eq] at hgives
    exact (made_of_create hgives hlive).1

theorem Lineage.providesItself {nearest : InjectorId × Injector}
    {ancestors : List (InjectorId × Injector)}
    (h : Lineage resolverInterceptors providerInterceptors (nearest :: ancestors)) :
    nearest.2.ProvidesItself nearest.1 := by
  cases h with
  | root hgives hlive => exact (made_of_create hgives hlive).2
  | child _ hgives hlive => exact (made_of_create hgives hlive).2

/-! ## Lineages that are made -/

/-- An injector, with its number, and the world in which it is alive. -/
structure Created where
  world : World
  id : InjectorId
  injector : Injector

/-- What a creation leaves, if it succeeds. -/
def created? (creation : Run InjectorId) (world : World) : Option Created :=
  match creation.run.run world with
  | (.ok id, world') => (world'.injector? id).map fun injector => ⟨world', id, injector⟩
  | (.error _, _) => none

theorem created?_gives {creation : Run InjectorId} {created : Created}
    (h : created? creation world = some created) :
    Gives creation world created.id created.world ∧
      created.world.injector? created.id = some created.injector := by
  rw [created?] at h
  split at h
  · next id after hrun =>
    obtain ⟨injector, hlive, rfl⟩ := Option.map_eq_some_iff.1 h
    exact ⟨hrun, hlive⟩
  · cases h

/-- The nearest injector of a lineage, and its ancestors. -/
structure Generation (resolverInterceptors : List ResolverInterceptor)
    (providerInterceptors : List ProviderInterceptor) extends Created where
  ancestors : List (InjectorId × Injector)
  lineage : Lineage resolverInterceptors providerInterceptors ((id, injector) :: ancestors)

namespace Generation

/-- A root that is made in a world. -/
def root (world : World) (component : List Entry)
    (h : (created? (createRoot 0 resolverInterceptors providerInterceptors component)
      world).isSome) : Generation resolverInterceptors providerInterceptors :=
  have hcreated := created?_gives (Option.some_get h).symm
  ⟨(created? _ world).get h, [], .root hcreated.1 hcreated.2⟩

/-- A child of the nearest injector. -/
def child (parent : Generation resolverInterceptors providerInterceptors) (component : List Entry)
    (h : (created? (createChild 0 parent.id parent.injector component) parent.world).isSome) :
    Generation resolverInterceptors providerInterceptors :=
  have hcreated := created?_gives (Option.some_get h).symm
  ⟨(created? _ parent.world).get h, (parent.id, parent.injector) :: parent.ancestors,
    .child parent.lineage hcreated.1 hcreated.2⟩

end Generation

end Injector

/-- A provider of a text. -/
def Provider.text (value : String) : Provider := .ready (.text value)

end Injection
