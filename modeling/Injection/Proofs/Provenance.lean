/-
  Where instances come from.

  What a child registers is found through the child and its descendants only.
  But what was made for the child stays in the singletons that it shares with its
  ancestors.

  * `Explained`: a provider is held by one of certain resolvers, or it went into
    the instance of a singleton that was made through another one;
  * `Resolver.trace_extends`: what goes into the answers of these resolvers is
    explained, and stays so;
  * `Injector.Lineage.request_explained`: what goes into the answers of an
    injector is provided by its lineage, or comes with such an instance;
  * `Settings.root_shares`: a root that gives a service made for its child, and one
    that gives what its interceptor supplies.
-/
import Injection.Proofs.Flattening
import Injection.Proofs.Holdings
import Injection.Proofs.Ledger

namespace Injection

/-! ## Explanations -/

/-- The cells of the singletons that a provider consists of. -/
def Provider.cells : Provider → List CellId
  | .singleton cell delegate => cell :: delegate.cells
  | .ready _ | .self _ | .factory _ _ => []

/-- One of certain resolvers holds the singleton with a cell. -/
def HoldsCell (own : Resolver → Prop) (cell : CellId) : Prop :=
  ∃ resolver provider, own resolver ∧ resolver.Holds provider ∧ cell ∈ provider.cells

/-- A provider is held by one of certain resolvers, or it went into the instance of a singleton that
    one of them holds and that was made through another resolver. -/
def Explained (own : Resolver → Prop) (kept : List Kept) (source : Source) : Prop :=
  (∃ resolver, own resolver ∧ resolver.Holds source.provider) ∨
    ∃ foreign ∈ kept, ¬own foreign.via ∧ HoldsCell own foreign.cell ∧ source ∈ foreign.sources

theorem Explained.mono {own : Resolver → Prop} {kept kept' : List Kept} {source : Source}
    (h : Explained own kept source) (hsub : kept ⊆ kept') : Explained own kept' source :=
  h.imp_right fun ⟨foreign, hmem, hforeign⟩ => ⟨foreign, hsub hmem, hforeign⟩

namespace Ledger

variable {own through : Resolver → Prop} {via : Resolver} {ledger before between after : Ledger}

/-- What a ledger says of the instances of singletons: they were made through known resolvers, what
    went into those made through certain ones is explained, and they are the instances that the
    world holds. -/
structure Sound (own through : Resolver → Prop) (ledger : Ledger) : Prop where
  through_via : ∀ kept ∈ ledger.kept, through kept.via
  explained : ∀ kept ∈ ledger.kept, own kept.via →
    ∀ source ∈ kept.sources, Explained own ledger.kept source
  filled : ∀ cell value, (ledger.world.singleton cell).value = some value →
    ∃ kept, ledger.kept.find? (·.cell == cell) = some kept ∧ kept.value = value

/-- What a computation through the resolver `via` adds to a ledger: instances made through this
    resolver, and providers that are explained if it is one of `own`.  Nothing is taken away. -/
structure Extends (own through : Resolver → Prop) (via : Resolver) (before after : Ledger) :
    Prop where
  sound : after.Sound own through
  kept : ∃ new, after.kept = new ++ before.kept ∧ ∀ kept ∈ new, kept.via = via
  grows : before.used ⊆ after.used
  used : own via → ∀ source ∈ after.used,
    source ∈ before.used ∨ Explained own after.kept source

theorem Sound.congr (h : before.Sound own through) (hkept : after.kept = before.kept)
    (hvalue : ∀ cell, (after.world.singleton cell).value = (before.world.singleton cell).value) :
    after.Sound own through where
  through_via := by
    rw [hkept]
    exact h.through_via
  explained := by
    rw [hkept]
    exact h.explained
  filled cell value hsome := by
    rw [hkept]
    exact h.filled cell value (hvalue cell ▸ hsome)

theorem Sound.of_fresh {world : World} (h : ∀ cell, world.singleton cell = ⟨none, false⟩)
    (used : List Source) : Sound own through ⟨world, [], used⟩ where
  through_via := by simp
  explained := by simp
  filled cell value hsome := by
    rw [h] at hsome
    cases hsome

theorem Extends.refl (h : ledger.Sound own through) : ledger.Extends own through via ledger :=
  ⟨h, ⟨[], rfl, by simp⟩, List.Subset.refl _, fun _ _ hmem => .inl hmem⟩

theorem Extends.subset (h : before.Extends own through via after) : before.kept ⊆ after.kept := by
  obtain ⟨new, hnew, -⟩ := h.kept
  rw [hnew]
  exact List.subset_append_right new before.kept

theorem Extends.trans (h : before.Extends own through via between)
    (h' : between.Extends own through via after) : before.Extends own through via after where
  sound := h'.sound
  kept := by
    obtain ⟨new, hnew, hvia⟩ := h.kept
    obtain ⟨new', hnew', hvia'⟩ := h'.kept
    refine ⟨new' ++ new, by rw [hnew', hnew, List.append_assoc], fun kept hmem => ?_⟩
    rcases List.mem_append.1 hmem with hmem | hmem
    · exact hvia' kept hmem
    · exact hvia kept hmem
  grows := List.Subset.trans h.grows h'.grows
  used hown source hmem := by
    rcases h'.used hown source hmem with hmem | hexplained
    · exact (h.used hown source hmem).imp_right fun hexplained => hexplained.mono h'.subset
    · exact .inr hexplained

/-- What went into the instance of a singleton that one of the resolvers holds is explained: the
    instance was made through one of them, or it was not. -/
theorem Sound.sourcesOf_explained (h : ledger.Sound own through) {cell : CellId} {value : Instance}
    (hvalue : (ledger.world.singleton cell).value = some value) (hcell : HoldsCell own cell) :
    ∀ source ∈ ledger.sourcesOf cell, Explained own ledger.kept source := by
  obtain ⟨kept, hkept, -⟩ := h.filled cell value hvalue
  have hmem := List.mem_of_find?_eq_some hkept
  obtain rfl : kept.cell = cell := by simpa using List.find?_some hkept
  intro source hsource
  rw [sourcesOf, hkept] at hsource
  by_cases hown : own kept.via
  · exact h.explained kept hmem hown source hsource
  · exact .inr ⟨kept, hmem, hown, hcell, hsource⟩

theorem Sound.finished (h : ledger.Sound own through) (hthrough : through via)
    (hused : own via → ∀ source ∈ ledger.used, Explained own ledger.kept source) (cell : CellId)
    (value : Instance) (earlier : List Source) :
    (ledger.finished cell via value earlier).Sound own through where
  through_via kept hmem := by
    rcases List.mem_cons.1 hmem with rfl | hmem
    · exact hthrough
    · exact h.through_via kept hmem
  explained kept hmem hown source hsource := by
    have hsub : ledger.kept ⊆ (ledger.finished cell via value earlier).kept :=
      List.subset_cons_self _ _
    rcases List.mem_cons.1 hmem with rfl | hmem
    · exact (hused hown source hsource).mono hsub
    · exact (h.explained kept hmem hown source hsource).mono hsub
  filled other value' hsome := by
    let stopped := (ledger.world.stopped cell).reported .singletonMade
    by_cases hother : other = cell
    · subst hother
      have hlt : other < stopped.singletons.size := by
        rw [← World.size_changed stopped other]
        exact World.lt_size_of_value hsome
      rw [Ledger.finished, World.value_filled hlt] at hsome
      exact ⟨_, List.find?_cons_of_pos BEq.rfl, Option.some.inj hsome⟩
    · have hstopped : (ledger.world.singleton other).value = some value' := by
        rw [Ledger.finished, World.value_filled_of_ne hother] at hsome
        exact (World.value_stopped ledger.world cell other).symm.trans hsome
      obtain ⟨kept, hkept, hvalue⟩ := h.filled other value' hstopped
      refine ⟨kept, (List.find?_cons_of_neg ?_).trans hkept, hvalue⟩
      simpa using Ne.symm hother

theorem Extends.stopped {cell : CellId}
    (h : (ledger.started cell).Extends own through via after) :
    ledger.Extends own through via (after.stopped cell ledger.used) where
  sound := h.sound.congr rfl (World.value_stopped after.world cell)
  kept := h.kept
  grows := List.subset_append_right _ _
  used hown source hmem := by
    rcases List.mem_append.1 hmem with hmem | hmem
    · exact .inr ((h.used hown source hmem).resolve_left List.not_mem_nil)
    · exact .inl hmem

theorem Extends.finished {cell : CellId} (h : (ledger.started cell).Extends own through via after)
    (hthrough : through via) (value : Instance) :
    ledger.Extends own through via (after.finished cell via value ledger.used) := by
  have hused : own via → ∀ source ∈ after.used, Explained own after.kept source :=
    fun hown source hmem => (h.used hown source hmem).resolve_left List.not_mem_nil
  refine ⟨h.sound.finished hthrough hused cell value ledger.used, ?_,
    List.subset_append_right _ _, fun hown source hmem => ?_⟩
  · obtain ⟨new, hnew, hvia⟩ := h.kept
    refine ⟨⟨cell, via, value, after.used⟩ :: new, congrArg _ hnew, fun kept hmem => ?_⟩
    rcases List.mem_cons.1 hmem with rfl | hmem
    · rfl
    · exact hvia kept hmem
  · rcases List.mem_append.1 hmem with hmem | hmem
    · exact .inr ((hused hown source hmem).mono (List.subset_cons_self _ _))
    · exact .inl hmem

end Ledger

/-! ## Requests that keep the ledger -/

namespace Traced

variable {own through : Resolver → Prop} {via : Resolver} {α β : Type}

/-- From a sound ledger, the computation extends it through the resolver `via`, however it ends. -/
def Extends (own through : Resolver → Prop) (via : Resolver) (traced : Traced α) : Prop :=
  ∀ ledger : Ledger, ledger.Sound own through →
    ledger.Extends own through via (traced.run.run ledger).2

namespace Extends

theorem gives {traced : Traced α} (h : Extends own through via traced) {ledger after : Ledger}
    {a : α} (hsound : ledger.Sound own through) (hgives : Gives traced ledger a after) :
    ledger.Extends own through via after := by
  have hextends := h ledger hsound
  rw [hgives] at hextends
  exact hextends

theorem pure (a : α) : Extends own through via (pure a : Traced α) := fun _ h => .refl h

theorem throw (stop : Stop) : Extends own through via (throw stop : Traced α) :=
  fun _ h => .refl h

theorem bind {traced : Traced α} {f : α → Traced β} (h : Extends own through via traced)
    (hf : ∀ a, Extends own through via (f a)) : Extends own through via (traced >>= f) := by
  intro ledger hsound
  have hfirst := h ledger hsound
  rw [ExceptT.run_bind, StateT.run_bind]
  rcases htraced : traced.run.run ledger with ⟨stop | a, between⟩
  · rw [htraced] at hfirst
    exact hfirst
  · rw [htraced] at hfirst
    exact hfirst.trans (hf a between hfirst.sound)

/-- Nothing but singletons is in the ledger. -/
theorem perform {run : Run α}
    (h : ∀ world, (run.run.run world).2.singletons = world.singletons) :
    Extends own through via (perform run) := by
  refine fun ledger hsound => ⟨hsound.congr rfl fun cell => ?_, ⟨[], rfl, by simp⟩,
    List.Subset.refl _, fun _ _ hmem => .inl hmem⟩
  exact congrArg SingletonCell.value (World.singleton_congr (h ledger.world) cell)

theorem lookup (lookup : Lookup α) :
    Extends own through via (Traced.perform (Run.lookup lookup)) :=
  perform fun world => congrArg (·.2.singletons) (Run.lookup_run lookup world)

/-- A lookup goes on with what it gives. -/
theorem bind_lookup {lookup : Lookup α} {f : α → Traced β}
    (hf : ∀ a journal journal', Gives lookup journal a journal' → Extends own through via (f a)) :
    Extends own through via (Traced.perform (Run.lookup lookup) >>= f) := by
  intro ledger hsound
  have hlookup : Extends own through via (Traced.perform (Run.lookup lookup)) := .lookup lookup
  have hfirst := hlookup ledger hsound
  have hrun := Follows.perform (Run.lookup lookup) ledger
  rw [ExceptT.run_bind, StateT.run_bind]
  rcases hend : (Traced.perform (Run.lookup lookup)).run.run ledger with ⟨stop | a, between⟩
  · rw [hend] at hfirst
    exact hfirst
  · rw [hend] at hfirst hrun
    obtain ⟨journal, hgives, -⟩ := Gives.lookup_inv hrun
    exact hfirst.trans (hf a _ journal hgives between hfirst.sound)

theorem attempt {traced : Traced α} (h : Extends own through via traced) :
    Extends own through via (attempt traced) := by
  have hending : Extends own through via (ExceptT.lift traced.run) := h
  exact bind hending (Run.attempt_rest pure throw)

/-- A provider that `via` holds is taken down. -/
theorem use {source : Source} (h : via.Holds source.provider) :
    Extends own through via (use [source]) := by
  refine fun ledger hsound => ⟨hsound.congr rfl fun _ => rfl, ⟨[], rfl, by simp⟩,
    List.subset_append_right _ _, fun hown other hmem => ?_⟩
  rcases List.mem_cons.1 hmem with rfl | hmem
  · exact .inr (.inl ⟨via, hown, h⟩)
  · exact .inl hmem

/-- To ask for a singleton that `via` holds is to take over what went into its instance, or to make
    it, on an account of its own. -/
theorem makeOnce {cell : CellId} {delegate : Traced Instance} (hthrough : through via)
    (hcell : own via → HoldsCell own cell) (h : Extends own through via delegate) :
    Extends own through via (makeOnce via cell delegate) := by
  intro ledger hsound
  rw [makeOnce_run]
  cases hvalue : (ledger.world.singleton cell).value with
  | some value =>
    refine ⟨hsound.congr rfl fun _ => rfl, ⟨[], rfl, by simp⟩, List.subset_append_right _ _,
      fun hown source hmem => ?_⟩
    rcases List.mem_append.1 hmem with hmem | hmem
    · exact .inr (hsound.sourcesOf_explained hvalue (hcell hown) source hmem)
    · exact .inl hmem
  | none =>
    cases (ledger.world.singleton cell).making with
    | true => exact .refl hsound
    | false =>
      have hstarted : (ledger.started cell).Sound own through :=
        hsound.congr rfl (World.value_started ledger.world cell)
      have hmade := h (ledger.started cell) hstarted
      simp only [Bool.false_eq_true, if_false]
      rcases hrun : delegate.run.run (ledger.started cell) with ⟨stop | value, made⟩
      · rw [hrun] at hmade
        exact hmade.stopped
      · rw [hrun] at hmade
        exact hmade.finished hthrough value

end Extends

end Traced

section

variable {own through : Resolver → Prop} {via : Resolver} {ask : Key → Traced Instance}
  {find : Key → Lookup (Option Provider)}

open Traced (Extends)

theorem Recipe.trace_extends {α : Type} (hask : ∀ key, Extends own through via (ask key))
    (recipe : Recipe α) : Extends own through via (recipe.trace ask find) := by
  induction recipe with
  | done value => exact .pure value
  | fail fault => exact .throw (.fault fault)
  | abort label => exact .throw (.abort label)
  | ask key next ih => exact .bind (.attempt (hask key)) ih
  | search key next ih => exact .bind (.lookup _) fun answer => ih _
  | newLazy next ih => exact .bind (.perform fun _ => rfl) ih
  | serial next ih => exact .bind (.perform fun _ => rfl) ih
  | note line next ih => exact .bind (.lookup _) fun _ => ih

theorem Provider.trace_extends (hthrough : through via)
    (hask : ∀ key, Extends own through via (ask key)) (provider : Provider)
    (hcells : own via → ∀ cell ∈ provider.cells, HoldsCell own cell) :
    Extends own through via (provider.trace via ask find) := by
  induction provider with
  | ready value => exact .pure value
  | self id => exact .perform (World.self_singletons id)
  | factory calls recipe =>
    exact .bind (.perform fun _ => rfl) fun call => Recipe.trace_extends hask (recipe call)
  | singleton cell delegate ih =>
    refine .makeOnce hthrough (fun hown => hcells hown cell List.mem_cons_self) (ih fun hown => ?_)
    exact fun other hmem => hcells hown other (List.mem_cons_of_mem _ hmem)

end

/-- What goes into the answers of certain resolvers is explained, and nothing but the instances of
    singletons made on the way is taken down besides. -/
theorem Resolver.trace_extends {own through : Resolver → Prop} {resolver : Resolver}
    (hthrough : through resolver) (depth : Nat) (key : Key) :
    Traced.Extends own through resolver (resolver.trace depth key) := by
  induction depth generalizing key with
  | zero => exact .throw .tooDeep
  | succ depth ih =>
    refine .bind_lookup fun provider journal journal' hgives => ?_
    have hholds := getProvider_holds hgives
    refine .bind (.use hholds) fun _ => provider.trace_extends hthrough ih fun hown cell hcell => ?_
    exact ⟨resolver, provider, hown, hholds, hcell⟩

/-- A request that gives an instance has taken down the provider that it found for the key. -/
theorem Resolver.trace_uses {own through : Resolver → Prop} {resolver : Resolver} {depth : Nat}
    {key : Key} {ledger after : Ledger} {value : Instance} (hsound : ledger.Sound own through)
    (hthrough : through resolver) (h : Gives (resolver.trace depth key) ledger value after) :
    ∃ provider, resolver.Holds provider ∧ ⟨resolver, key, provider⟩ ∈ after.used := by
  cases depth with
  | zero => exact (Gives.throw_inv h).elim
  | succ depth =>
    obtain ⟨provider, found, hlookup, h⟩ := Gives.bind_inv h
    obtain ⟨_, noted, huse, h⟩ := Gives.bind_inv h
    have hrun := Traced.Follows.perform (Run.lookup (resolver.getProvider key)) ledger
    rw [hlookup] at hrun
    obtain ⟨journal, hgives, -⟩ := Gives.lookup_inv hrun
    have hholds := getProvider_holds hgives
    have hfound : ledger.Extends own through resolver found :=
      (Traced.Extends.lookup _).gives hsound hlookup
    obtain ⟨-, rfl⟩ := Prod.mk.inj huse
    have hnoted : (found.use [⟨resolver, key, provider⟩]).Sound own through :=
      hfound.sound.congr rfl fun _ => rfl
    have hafter := (provider.trace_extends hthrough (trace_extends hthrough depth)
      fun hown cell hcell => ⟨resolver, provider, hown, hholds, hcell⟩).gives hnoted h
    exact ⟨provider, hholds, hafter.grows List.mem_cons_self⟩

/-! ## Requests one after another -/

namespace Ledger

/-- The ledger after a request, at whose beginning no provider was asked. -/
def afterRequest (ledger : Ledger) (depth : Nat) (resolver : Resolver) (key : Key) : Ledger :=
  ((resolver.trace depth key).run.run { ledger with used := [] }).2

theorem exists_used {ledger : Ledger} {provider : Provider} {providers : List Provider}
    (h : ledger.used.map (·.provider) = providers) (hmem : provider ∈ providers) :
    ∃ source ∈ ledger.used, source.provider = provider := by
  rw [← h] at hmem
  exact List.mem_map.1 hmem

/-- A ledger kept from a world on in which no singleton was made, over requests through certain
    resolvers.  Between requests anything may happen but to the instances of singletons. -/
inductive Reached (through : Resolver → Prop) : Ledger → Prop
  | fresh {world} : (∀ cell, world.singleton cell = ⟨none, false⟩) → Reached through ⟨world, [], []⟩
  | request {ledger resolver} (depth key) : Reached through ledger → through resolver →
    Reached through (ledger.afterRequest depth resolver key)
  | other {ledger world} : Reached through ledger →
    (∀ cell, (world.singleton cell).value = (ledger.world.singleton cell).value) →
    Reached through { ledger with world }

variable {own through : Resolver → Prop} {ledger : Ledger}

theorem Sound.request {resolver : Resolver} (h : ledger.Sound own through)
    (hthrough : through resolver) (depth : Nat) (key : Key) :
    Extends own through resolver { ledger with used := [] }
      (ledger.afterRequest depth resolver key) :=
  resolver.trace_extends hthrough depth key _ (h.congr rfl fun _ => rfl)

theorem Reached.sound (h : Reached through ledger) : ledger.Sound own through := by
  induction h with
  | fresh hfresh => exact .of_fresh hfresh []
  | request depth key _ hthrough ih => exact (ih.request hthrough depth key).sound
  | other _ hvalue ih => exact ih.congr rfl hvalue

theorem Reached.mono {through' : Resolver → Prop} (h : Reached through ledger)
    (hsub : ∀ resolver, through resolver → through' resolver) : Reached through' ledger := by
  induction h with
  | fresh hfresh => exact .fresh hfresh
  | request depth key _ hthrough ih => exact .request depth key ih (hsub _ hthrough)
  | other _ hvalue ih => exact .other ih hvalue

end Ledger

/-- Requests go through whatever resolvers, those of descendants among them, and in between anything
    happens but to the instances of singletons.  Then a request through an injector ends as it does
    without a ledger, the ledger knows the instances of all singletons that were made, and the
    provider that gives the answer is taken down.  Every provider that is taken down for the answer,
    at any depth, is registered in the injector or in one of its ancestors or supplied by their
    interceptors; or it went into the instance of a singleton that is so provided itself, and that a
    request made before which came neither through the injector nor through one of its ancestors. -/
theorem Injector.Lineage.request_explained {resolverInterceptors : List ResolverInterceptor}
    {providerInterceptors : List ProviderInterceptor} {id : InjectorId} {injector : Injector}
    {ancestors : List (InjectorId × Injector)}
    (h : Lineage resolverInterceptors providerInterceptors ((id, injector) :: ancestors))
    {through : Resolver → Prop} {ledger : Ledger} (hreached : ledger.Reached through) (depth : Nat)
    (key : Key) :
    (∀ cell value, (ledger.world.singleton cell).value = some value →
      ∃ kept ∈ ledger.kept, kept.cell = cell ∧ kept.value = value) ∧
    ∃ outcome after, ((injector.resolver id).getInstance depth key).run.run ledger.world =
        (outcome, after.world) ∧
      ((injector.resolver id).trace depth key).run.run { ledger with used := [] } =
        (outcome, after) ∧
      (∀ value, outcome = .ok value →
        ∃ provider, ⟨injector.resolver id, key, provider⟩ ∈ after.used) ∧
      ∀ source ∈ after.used,
        Provided resolverInterceptors providerInterceptors ((id, injector) :: ancestors)
          source.provider ∨
        ∃ foreign ∈ ledger.kept, through foreign.via ∧
          ¬Own ((id, injector) :: ancestors) foreign.via ∧
          (∃ provider, Provided resolverInterceptors providerInterceptors
            ((id, injector) :: ancestors) provider ∧ foreign.cell ∈ provider.cells) ∧
          source ∈ foreign.sources := by
  let own := Own ((id, injector) :: ancestors)
  have hown : own (injector.resolver id) := ⟨_, List.mem_cons_self, rfl⟩
  have hsound : ledger.Sound own through := hreached.sound
  have hbegun : Ledger.Sound own (fun resolver => through resolver ∨ own resolver)
      { ledger with used := [] } :=
    (hreached.mono fun _ => .inl).sound.congr rfl fun _ => rfl
  refine ⟨fun cell value hvalue => ?_, ?_⟩
  · obtain ⟨kept, hkept, hsame⟩ := hsound.filled cell value hvalue
    exact ⟨kept, List.mem_of_find?_eq_some hkept, by simpa using List.find?_some hkept, hsame⟩
  · have hfollows :=
      Resolver.trace_follows depth (injector.resolver id) key { ledger with used := [] }
    have hextends := Resolver.trace_extends (.inr hown) depth key _ hbegun
    rcases htrace : ((injector.resolver id).trace depth key).run.run { ledger with used := [] } with
      ⟨outcome, after⟩
    rw [htrace] at hfollows hextends
    refine ⟨outcome, after, hfollows, rfl, ?_, fun source hmem => ?_⟩
    · rintro value rfl
      obtain ⟨provider, -, hused⟩ := Resolver.trace_uses hbegun (.inr hown) htrace
      exact ⟨provider, hused⟩
    · rcases (hextends.used hown source hmem).resolve_left List.not_mem_nil with
        ⟨resolver, hresolver, hholds⟩ |
        ⟨foreign, hforeign, hother, ⟨resolver, provider, hresolver, hholds, hcell⟩, hsource⟩
      · exact .inl (h.provided_of_own hresolver hholds)
      · -- what this request made was made through the injector itself
        obtain ⟨new, hnew, hvia⟩ := hextends.kept
        have hbefore : foreign ∈ ledger.kept := by
          rw [hnew] at hforeign
          refine (List.mem_append.1 hforeign).resolve_left fun hmem => hother ?_
          rw [hvia foreign hmem]
          exact hown
        exact .inr ⟨foreign, hbefore, hsound.through_via foreign hbefore, hother,
          ⟨provider, h.provided_of_own hresolver hholds, hcell⟩, hsource⟩

/-! ## A service made for a child -/

namespace Settings

/-- The ledger after the child was asked for the service, which the root shares. -/
def asked : Ledger :=
  Ledger.afterRequest ⟨second.world, [], []⟩ 3 (child.resolver 1) (.plain "Service")

set_option maxRecDepth 4000 in
theorem unmade (cell : CellId) : second.world.singleton cell = ⟨none, false⟩ := by
  have hcells : second.world.singletons = #[⟨none, false⟩] := by rfl
  rw [World.singleton, hcells]
  cases cell with
  | zero => rfl
  | succ cell => rfl

theorem asked_reached : asked.Reached (· = child.resolver 1) :=
  .request 3 (.plain "Service") (.fresh unmade) rfl

set_option maxRecDepth 4000 in
/-- The settings of the child are registered nowhere in the root. -/
theorem child_settings_not_provided :
    ¬Injector.Provided [] [] [(0, root)] (.text "child") := by
  have hvalues : root.registry.bindings.toList.map (·.2) =
      [.self 0, .text "root", .singleton 0 (.factory 0 fun _ => service),
        .factory 1 fun _ => Recipe.request .injector] := by rfl
  intro hprovided
  have hvalue := lineage.tail.mem_values_of_provided hprovided
  rw [hvalues] at hvalue
  simp [Provider.text] at hvalue

def substitutes : List ProviderInterceptor :=
  [.substituting (.ofPairs [(.plain "Settings", .text "substitute")])]

/-- A root whose interceptor answers for the settings that are registered in it. -/
def intercepted : Injector.Generation [] substitutes :=
  .root .empty [.provider (.plain "Settings") (.text "root")] (by decide +kernel)

def answering : Injector := intercepted.injector

set_option maxRecDepth 4000 in
theorem answering_lineage : Injector.Lineage [] substitutes [(0, answering)] := intercepted.lineage

set_option maxRecDepth 4000 in
theorem substitute_not_registered :
    ¬Bindings.Has answering.registry.bindings (.text "substitute") := by
  have hvalues : answering.registry.bindings.toList.map (·.2) =
      [.self 0, .text "root"] := by rfl
  intro hhas
  have hvalue := answering_lineage.mem_values hhas
  rw [hvalues] at hvalue
  simp [Provider.text] at hvalue

set_option maxRecDepth 4000 in
/-- The root gives a service that was made with the settings of its child, which are not registered
    in the root.  Nor are the settings that an interceptor supplies in a root which answers with
    them. -/
theorem root_shares :
    (Injector.Lineage [] [] [(1, child), (0, root)] ∧ asked.Reached (· = child.resolver 1) ∧
      (((root.resolver 0).getInstance 3 (.plain "Service")).run.run asked.world).1 =
        .ok (.object "Service" "service" 1 [.made (.text "child")]) ∧
      ∃ source ∈ (asked.afterRequest 3 (root.resolver 0) (.plain "Service")).used,
        source.provider = .text "child" ∧
          ¬Injector.Provided [] [] [(0, root)] source.provider) ∧
    Injector.Lineage [] substitutes [(0, answering)] ∧
      (((answering.resolver 0).getInstance 1 (.plain "Settings")).run.run intercepted.world).1 =
        .ok (.text "substitute") ∧
      ∃ source ∈ (Ledger.afterRequest ⟨intercepted.world, [], []⟩ 1 (answering.resolver 0)
          (.plain "Settings")).used,
        source.provider = .text "substitute" ∧
          ¬Bindings.Has answering.registry.bindings source.provider := by
  refine ⟨⟨lineage, asked_reached, by rfl, ?_⟩, answering_lineage, by rfl, ?_⟩
  · have hused : (asked.afterRequest 3 (root.resolver 0) (.plain "Service")).used.map (·.provider) =
        [.text "child", .singleton 0 (.factory 0 fun _ => service)] := by rfl
    obtain ⟨source, hsource, hprovider⟩ := Ledger.exists_used hused List.mem_cons_self
    exact ⟨source, hsource, hprovider, hprovider ▸ child_settings_not_provided⟩
  · have hused : (Ledger.afterRequest ⟨intercepted.world, [], []⟩ 1 (answering.resolver 0)
        (.plain "Settings")).used.map (·.provider) = [.text "substitute"] := by rfl
    obtain ⟨source, hsource, hprovider⟩ := Ledger.exists_used hused List.mem_cons_self
    exact ⟨source, hsource, hprovider, hprovider ▸ substitute_not_registered⟩

/-- All that went into the service is provided by the root, or came with the instance that was made
    for the child. -/
theorem root_explained :
    asked.Reached (· = child.resolver 1) ∧
    ∀ source ∈ (asked.afterRequest 3 (root.resolver 0) (.plain "Service")).used,
      Injector.Provided [] [] [(0, root)] source.provider ∨
      ∃ foreign ∈ asked.kept, foreign.via = child.resolver 1 ∧ source ∈ foreign.sources := by
  refine ⟨asked_reached, ?_⟩
  obtain ⟨-, outcome, after, -, htrace, -, hexplained⟩ :=
    lineage.tail.request_explained asked_reached 3 (.plain "Service")
  have hafter : asked.afterRequest 3 (root.resolver 0) (.plain "Service") = after :=
    congrArg Prod.snd htrace
  rw [hafter]
  intro source hmem
  refine (hexplained source hmem).imp_right ?_
  rintro ⟨foreign, hforeign, hvia, -, -, hsource⟩
  exact ⟨foreign, hforeign, hvia, hsource⟩

end Settings

end Injection
