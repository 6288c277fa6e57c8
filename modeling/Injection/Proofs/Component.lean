/-
  The component of a plan, and the injector that it makes.

  * `Plan.component` has a factory for every instruction of a plan, in order; a
    `Craft` says what a factory makes of the instances and handles it got;
  * `Deployed`: the providers of these factories, with their singletons' cells
    numbered in the order of the plan;
  * `Injector.createRoot_ends`: an injector without interceptors comes of any
    component that registers pairwise different keys.
-/
import Injection.Plan
import Injection.Proofs.KeyIdentity
import Injection.Proofs.Run
import Injection.Proofs.SlotTable
import Injection.Session.Making

namespace Injection

open Session (Need)

/-! ## Factories of a plan -/

/-- What a factory does with what it needs. -/
structure Craft where
  /-- The type that a handle expects of the instance for a key. -/
  expected : Key → String
  /-- Whether a handle keeps its instance. -/
  isLazy : Key → Bool
  /-- The instance made in a call, from the parts and a serial number. -/
  make : Nat → List Part → Nat → Instance

namespace Instruction

/-- What the factory of an instruction needs: the instances first, then the handles. -/
def needs (craft : Craft) (i : Instruction) : List Need :=
  i.dependencies.map .any ++ i.deferred.map fun key =>
    if craft.isLazy key then .lazyHandle key (craft.expected key)
    else .handle key (craft.expected key)

/-- The recipe of the factory of an instruction: it gets what it needs in order, fails with the
    first fault, and makes an instance of what it got. -/
def recipe (craft : Craft) (i : Instruction) (call : Nat) : Recipe Instance := do
  let parts ← (i.needs craft).mapM Need.recipe
  .serial fun serial => .done (craft.make call parts serial)

/-- The entry of an instruction: its factory, which is shared if the instruction says so. -/
def entry (craft : Craft) (i : Instruction) : Run Entry := do
  let calls ← World.newCounter
  let factory := Provider.factory calls (i.recipe craft)
  if i.isSingleton then return .provider i.key (.singleton (← World.newSingleton) factory)
  else return .provider i.key factory

end Instruction

/-- The component that registers a factory for each instruction of a plan, in order. -/
def Plan.component (craft : Instruction → Craft) (plan : Plan) : Run (List Entry) :=
  plan.instructions.mapM fun i => i.entry (craft i)

/-- Makes the injector of a plan. -/
def Plan.inject (craft : Instruction → Craft) (depth : Nat) (plan : Plan) : Run InjectorId := do
  let component ← plan.component craft
  Injector.createRoot depth [] [] component

/-- Asks an injector, if it is alive, for the instance of a key. -/
def World.request (depth : Nat) (id : InjectorId) (key : Key) : Run Instance := do
  match (← get).injector? id with
  | some injector => (injector.resolver id).getInstance depth key
  | none => Run.fail (.injectorGone key)

/-! ## Their providers -/

/-- The providers of a list of instructions, with cells of singletons from `base` on; `limit` is
    the first cell that none of them has. -/
inductive Deployed (craft : Instruction → Craft) (base : CellId) :
    List Instruction → List (Key × Provider) → CellId → Prop
  | nil : Deployed craft base [] [] base
  | factory {instructions providers limit i} (calls : CounterId) :
    Deployed craft base instructions providers limit → i.isSingleton = false →
    Deployed craft base (instructions ++ [i])
      (providers ++ [(i.key, .factory calls (i.recipe (craft i)))]) limit
  | singleton {instructions providers limit i} (calls : CounterId) :
    Deployed craft base instructions providers limit → i.isSingleton = true →
    Deployed craft base (instructions ++ [i])
      (providers ++ [(i.key, .singleton limit (.factory calls (i.recipe (craft i))))]) (limit + 1)

namespace Deployed

variable {craft : Instruction → Craft} {base limit : CellId} {instructions : List Instruction}
  {providers : List (Key × Provider)}

theorem base_le (h : Deployed craft base instructions providers limit) : base ≤ limit := by
  induction h with
  | nil => exact Nat.le_refl _
  | factory _ _ _ ih => exact ih
  | singleton _ _ _ ih => exact Nat.le_succ_of_le ih

theorem keys_eq (h : Deployed craft base instructions providers limit) :
    providers.map (·.1) = instructions.map (·.key) := by
  induction h with
  | nil => rfl
  | factory _ _ _ ih => simp [ih]
  | singleton _ _ _ ih => simp [ih]

end Deployed

/-- The injectors of a world are those of another, and no singleton from `base` on is being made. -/
structure World.Extends (base : CellId) (before after : World) : Prop where
  injectors : after.injectors = before.injectors
  idle : ∀ cell, base ≤ cell → (after.singleton cell).making = false

variable {craft : Instruction → Craft} {base : CellId} {world : World}

theorem Instruction.entry_ends {instructions : List Instruction}
    {providers : List (Key × Provider)} (i : Instruction)
    (h : Deployed craft base instructions providers world.singletons.size)
    (hidle : ∀ cell, base ≤ cell → (world.singleton cell).making = false) :
    (i.entry (craft i)).Ends world fun entry world' =>
      ∃ provider, entry = .provider i.key provider ∧ world.Extends base world' ∧
        Deployed craft base (instructions ++ [i]) (providers ++ [(i.key, provider)])
          world'.singletons.size := by
  refine .bind (P := fun _ world' => world'.injectors = world.injectors ∧
    world'.singletons = world.singletons) (.modifyGet ⟨rfl, rfl⟩) ?_
  rintro calls between ⟨hinjectors, hsingletons⟩
  have hsingleton : ∀ cell, between.singleton cell = world.singleton cell :=
    World.singleton_congr hsingletons
  cases hscope : i.isSingleton with
  | false =>
    refine .pure ⟨_, rfl, ⟨hinjectors, fun cell hcell => ?_⟩, ?_⟩
    · rw [hsingleton, hidle cell hcell]
    · rw [hsingletons]
      exact .factory calls h hscope
  | true =>
    refine .bind (P := fun cell world' => cell = world.singletons.size ∧
      world'.injectors = world.injectors ∧
      world'.singletons = world.singletons.push ⟨none, false⟩) (.modifyGet ⟨?_, ?_, ?_⟩) ?_
    · rw [hsingletons]
    · exact hinjectors
    · rw [hsingletons]
    · rintro _ after ⟨rfl, hinjectors', hsingletons'⟩
      refine .pure ⟨_, rfl, ⟨hinjectors', fun cell hcell => ?_⟩, ?_⟩
      · have hold := hidle cell hcell
        simp only [World.singleton, hsingletons', Array.getD_eq_getD_getElem?,
          Array.getElem?_push] at hold ⊢
        split
        · rfl
        · exact hold
      · rw [hsingletons', Array.size_push]
        exact .singleton calls h hscope

theorem Plan.entries_end (rest : List Instruction) :
    ∀ {world : World} {instructions : List Instruction} {providers : List (Key × Provider)},
      Deployed craft base instructions providers world.singletons.size →
      (∀ cell, base ≤ cell → (world.singleton cell).making = false) →
      (rest.mapM fun i : Instruction => i.entry (craft i)).Ends world fun entries world' =>
        ∃ providers', entries = providers'.map (fun p => .provider p.1 p.2) ∧
          world.Extends base world' ∧
          Deployed craft base (instructions ++ rest) (providers ++ providers')
            world'.singletons.size := by
  induction rest with
  | nil =>
    intro world instructions providers h hidle
    exact .pure ⟨[], rfl, ⟨rfl, hidle⟩, by simpa using h⟩
  | cons i rest ih =>
    intro world instructions providers h hidle
    rw [List.mapM_cons]
    refine .bind (i.entry_ends h hidle) ?_
    rintro _ between ⟨provider, rfl, ⟨hinjectors, hidle'⟩, hbetween⟩
    refine .bind (ih hbetween hidle') ?_
    rintro _ after ⟨providers', rfl, ⟨hinjectors', hidle''⟩, hafter⟩
    refine .pure ⟨(i.key, provider) :: providers', rfl, ⟨hinjectors'.trans hinjectors, hidle''⟩, ?_⟩
    simpa using hafter

/-- The component of a plan has the providers of its instructions. -/
theorem Plan.component_ends (craft : Instruction → Craft) (plan : Plan) (world : World) :
    (plan.component craft).Ends world fun component world' =>
      ∃ providers limit, component = providers.map (fun p => .provider p.1 p.2) ∧
        world.Extends world.singletons.size world' ∧
        Deployed craft world.singletons.size plan.instructions providers limit := by
  refine (entries_end plan.instructions .nil fun cell hcell => ?_).mono ?_
  · have hnone : world.singletons[cell]? = none := Array.getElem?_eq_none hcell
    simp [World.singleton, hnone]
  · rintro component after ⟨providers, hcomponent, hextends, h⟩
    exact ⟨providers, _, hcomponent, hextends, by simpa using h⟩

/-! ## Registration -/

namespace Registry

variable {registry : Registry}

/-- A provider for a new key is registered after all others. -/
theorem register_ends (hparent : registry.parent = none) (hwf : registry.bindings.WellFormed)
    {key : Key} (hnew : registry.bindings.contains key = false) (provider : Provider) :
    (Run.lookup (registry.register key provider)).Ends world fun registry' world' =>
      world.Keeps world' ∧ registry'.parent = none ∧ registry'.bindings.WellFormed ∧
        registry'.bindings.toList = registry.bindings.toList ++ [(key, provider)] := by
  obtain ⟨bindings, parent⟩ := registry
  obtain rfl : parent = none := hparent
  have hinsert : bindings.insert key provider = (bindings.insertNew key provider, none) := by
    rw [SlotTable.insertNew, hwf.insert_eq, if_neg (Bool.eq_false_iff.1 hnew)]
  have hregister : ∀ journal : Journal,
      ((register ⟨bindings, none⟩ key provider).run.run journal).1 =
        .ok ⟨bindings.insertNew key provider, none⟩ := fun journal => by
    rw [register, noteShadowing]
    simp only [hinsert]
    rfl
  exact .lookup (hregister _) ⟨⟨rfl, fun _ => rfl⟩, rfl, hwf.insertNew key provider,
    hwf.toList_insertNew hnew provider⟩

/-- Providers for pairwise different new keys are registered in order. -/
theorem configure_ends (depth : Nat) (providers : List (Key × Provider)) :
    ∀ {world : World} {registry : Registry}, registry.parent = none →
      registry.bindings.WellFormed →
      (registry.bindings.keys ++ providers.map (·.1)).Pairwise (fun a b => (a == b) = false) →
      (registry.configure depth (providers.map fun p => .provider p.1 p.2)).Ends world
        fun registry' world' =>
          world.Keeps world' ∧ registry'.parent = none ∧ registry'.bindings.WellFormed ∧
            registry'.bindings.toList = registry.bindings.toList ++ providers := by
  induction providers with
  | nil =>
    intro world registry hparent hwf _
    exact .pure ⟨.refl world, hparent, hwf, (List.append_nil _).symm⟩
  | cons p providers ih =>
    intro world registry hparent hwf hdistinct
    have hnew : registry.bindings.contains p.1 = false := by
      rw [← Bool.not_eq_true, hwf.contains_iff]
      rintro ⟨key, hkey, hsame⟩
      rw [(List.pairwise_append.1 hdistinct).2.2 key hkey p.1 (by simp)] at hsame
      cases hsame
    refine .bind (register_ends hparent hwf hnew p.2) ?_
    rintro registry' world' ⟨hkeeps, hparent', hwf', hlist⟩
    have hkeys : registry'.bindings.keys = registry.bindings.keys ++ [p.1] := by
      rw [SlotTable.keys_eq_map, hlist, List.map_append, SlotTable.keys_eq_map]
      rfl
    refine (ih hparent' hwf' (by simpa [hkeys] using hdistinct)).mono ?_
    rintro registry'' world'' ⟨hkeeps', hparent'', hwf'', hlist'⟩
    exact ⟨hkeeps.trans hkeeps', hparent'', hwf'', by simpa [hlist] using hlist'⟩

end Registry

/-! ## Injectors -/

/-- The resolver of an injector without interceptors and without a parent. -/
def Injector.rootResolver (id : InjectorId) (bindings : Bindings) : Resolver :=
  .injector id [] (.registry bindings none)

/-- The bindings of an injector that has certain providers besides itself. -/
structure Bindings.Serve (bindings : Bindings) (id : InjectorId)
    (providers : List (Key × Provider)) : Prop where
  wf : bindings.WellFormed
  toList_eq : bindings.toList = (.injector, .self id) :: providers

/-- An injector without interceptors came to be, with certain providers besides itself, and no
    singleton was started or finished meanwhile. -/
def World.Hosts (world : World) (id : InjectorId) (providers : List (Key × Provider))
    (world' : World) : Prop :=
  ∃ injector bindings, world'.injector? id = some injector ∧
    injector.resolver id = Injector.rootResolver id bindings ∧ bindings.Serve id providers ∧
    ∀ cell, (world'.singleton cell).making = (world.singleton cell).making

theorem World.setInjector_ends (id : InjectorId) (slot : InjectorSlot) :
    (World.setInjector id slot).Ends world fun _ world' =>
      world'.injectors = world.injectors.setIfInBounds id slot ∧
        world'.singletons = world.singletons :=
  .modify ⟨rfl, rfl⟩

namespace Injector

/-- A component that registers pairwise different keys, none of them the injector's, configures an
    injector with these providers and that of itself. -/
theorem configure_ends (depth : Nat) {id : InjectorId} (hid : id < world.injectors.size)
    (providers : List (Key × Provider))
    (hdistinct : (Key.injector :: providers.map (·.1)).Pairwise fun a b => (a == b) = false) :
    (configure depth id (.empty none) none [] []
      (providers.map fun p => .provider p.1 p.2)).Ends world fun id' world' =>
        id' = id ∧ world.Hosts id providers world' := by
  refine .bind (Registry.register_ends rfl .empty (SlotTable.contains_empty _) (.self id)) ?_
  rintro registry world₁ ⟨hkeeps₁, hparent, hwf, hlist⟩
  have hkeys : registry.bindings.keys = [.injector] := by
    rw [SlotTable.keys_eq_map, hlist]
    rfl
  refine .bind (Registry.configure_ends depth providers hparent hwf (by rwa [hkeys])) ?_
  rintro ⟨bindings, parent⟩ world₂ ⟨hkeeps₂, hparent', hwf', hlist'⟩
  obtain rfl : parent = none := hparent'
  refine .bind (P := fun inner world' => inner = .registry bindings none ∧ world₂.Keeps world')
    (.lookup (a := .registry bindings none) rfl ⟨rfl, rfl, fun _ => rfl⟩) ?_
  rintro _ world₃ ⟨rfl, hkeeps₃⟩
  refine .bind (World.report_ends _) fun _ world₄ hkeeps₄ => ?_
  have hkeeps : world.Keeps world₄ := ((hkeeps₁.trans hkeeps₂).trans hkeeps₃).trans hkeeps₄
  refine .bind (World.setInjector_ends id _) ?_
  rintro _ after ⟨hinjectors, hcells⟩
  refine .pure ⟨rfl, ⟨⟨bindings, none⟩, .registry bindings none, none, [], []⟩, bindings, ?_, rfl,
    ⟨hwf', ?_⟩, fun cell => ?_⟩
  · have hlt : id < world₄.injectors.size := by rwa [hkeeps.injectors]
    rw [World.injector?, hinjectors, Array.getElem?_setIfInBounds_self_of_lt hlt]
  · rw [hlist', hlist]
    rfl
  · rw [World.singleton_congr hcells, hkeeps.making]

theorem createRoot_ends (depth : Nat) (providers : List (Key × Provider))
    (hdistinct : (Key.injector :: providers.map (·.1)).Pairwise fun a b => (a == b) = false) :
    (createRoot depth [] [] (providers.map fun p => .provider p.1 p.2)).Ends world
      fun id world' => world.Hosts id providers world' := by
  refine .bind (P := fun id world' => id < world'.injectors.size ∧
    world'.singletons = world.singletons) (.modifyGet ⟨by simp, rfl⟩) ?_
  rintro id between ⟨hid, hcells⟩
  refine .bind (P := fun outcome world' => outcome = .ok id ∧ between.Hosts id providers world')
    (.ending ?_) ?_
  · refine (configure_ends depth hid providers hdistinct).mono ?_
    rintro _ after ⟨rfl, hhosts⟩
    exact ⟨rfl, hhosts⟩
  · rintro _ after ⟨rfl, injector, bindings, halive, hresolver, hserve, hmaking⟩
    refine .pure ⟨injector, bindings, halive, hresolver, hserve, fun cell => ?_⟩
    rw [hmaking cell, World.singleton_congr hcells]

end Injector

end Injection
