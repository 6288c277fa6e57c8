/-
  What was analysed with success can be made.

  * `Deployed.answers`: going through a plan in order, every request for an
    instance ends with one, if no singleton of the plan is being made;
  * `analyse_resolves`: the component of an analysis makes an injector, and that
    injector answers every request for a key of the plan, for one behind a
    deferred handle and for one that a target needs.
-/
import Injection.Proofs.Analysis
import Injection.Proofs.Component

namespace Injection

open Relation
open Session (Need)

/-! ## Requests through a resolver -/

variable {id : InjectorId} {bindings : Bindings} {base limit : CellId} {world : World}

/-- A request ends as the provider of its key does. -/
theorem Injector.getInstance_ends {depth : Nat} {key : Key} {provider : Provider}
    {P : Instance → World → Prop} (hprovider : bindings.get? key = some provider)
    (h : (provider.get ((rootResolver id bindings).getInstance depth)
      (rootResolver id bindings).find).Ends world P) :
    ((rootResolver id bindings).getInstance (depth + 1) key).Ends world P := by
  have hlookup : ∀ journal : Journal,
      ((rootResolver id bindings).getProvider key).run.run journal = (.ok provider, journal) := by
    intro journal
    simp only [rootResolver, Resolver.getProvider, Lookup.chain, Lookup.required, Resolver.find,
      hprovider]
    rfl
  refine .bind (P := fun found world' => found = provider ∧ world' = world) ?_ ?_
  · exact .lookup (by rw [hlookup]) ⟨rfl, by rw [hlookup]⟩
  · rintro _ _ ⟨rfl, rfl⟩
    exact h

/-- An injector is alive, and the singletons from `base` to `limit` are not being made. -/
structure World.Ready (id : InjectorId) (base limit : CellId) (world : World) : Prop where
  alive : ∃ injector, world.injector? id = some injector
  idle : ∀ cell, base ≤ cell → cell < limit → (world.singleton cell).making = false

namespace World.Ready

theorem keeps {world' : World} (h : world.Ready id base limit) (hkeeps : world.Keeps world') :
    world'.Ready id base limit where
  alive := by rw [hkeeps.injector?]; exact h.alive
  idle cell hbase hlimit := by rw [hkeeps.making]; exact h.idle cell hbase hlimit

theorem mono {limit' : CellId} (h : world.Ready id base limit) (hle : limit' ≤ limit) :
    world.Ready id base limit' where
  alive := h.alive
  idle cell hbase hlimit := h.idle cell hbase (Nat.lt_of_lt_of_le hlimit hle)

/-- While a singleton is being made, those before it are not. -/
theorem started (h : world.Ready id base limit) : (world.started limit).Ready id base limit where
  alive := h.alive
  idle cell hbase hlimit := by
    rw [World.started, World.making_changed_of_ne (Nat.ne_of_lt hlimit)]
    exact h.idle cell hbase hlimit

end World.Ready

/-- The injector gives itself. -/
theorem Injector.self_ends {depth : Nat} {key : Key} (hready : world.Ready id base limit)
    (hself : bindings.get? key = some (.self id)) (hdepth : 0 < depth) :
    ((rootResolver id bindings).getInstance depth key).Ends world fun value world' =>
      value = .injector id ∧ world.Keeps world' := by
  obtain ⟨depth, rfl⟩ := Nat.exists_eq_add_of_lt hdepth
  obtain ⟨injector, halive⟩ := hready.alive
  refine getInstance_ends hself (.get ?_)
  simp only [halive]
  exact .pure ⟨rfl, .refl world⟩

/-! ## Factories -/

section

variable {ask : Key → Run Instance} {find : Key → Lookup (Option Provider)}

/-- A factory ends with an instance if each of its dependencies and the injector can be asked
    for. -/
theorem Instruction.recipe_ends {craft : Craft} {i : Instruction} (call : Nat)
    (hdependencies : ∀ d ∈ i.dependencies, ∀ world', world.Keeps world' →
      (ask d).Ends world' fun _ => world'.Keeps)
    (hinjector : ∀ world', world.Keeps world' →
      (ask .injector).Ends world' fun value world'' =>
        value = .injector id ∧ world'.Keeps world'') :
    ((i.recipe craft call).run ask find).Ends world fun _ => world.Keeps := by
  rw [Instruction.recipe, Recipe.run_bind, Recipe.run_mapM]
  refine .bind (Run.mapM_ends fun need hneed world' hkeeps => ?_) fun parts world' hkeeps => ?_
  · rcases List.mem_append.1 hneed with hneed | hneed
    · obtain ⟨d, hd, rfl⟩ := List.mem_map.1 hneed
      rw [Need.recipe, Recipe.run_bind]
      refine .bind (Recipe.request_ends (hdependencies d hd world' hkeeps)) ?_
      exact fun _ _ hkeeps' => .pure hkeeps'
    · obtain ⟨key, -, rfl⟩ := List.mem_map.1 hneed
      have hhandle : ((Recipe.handle key (craft.expected key)).run ask find).Ends world'
          fun handle world'' => handle = ⟨id, key, craft.expected key⟩ ∧ world'.Keeps world'' :=
        Recipe.handle_ends key (craft.expected key) (hinjector world' hkeeps)
      split
      · rw [Need.recipe, Recipe.run_bind]
        refine hhandle.bind fun handle world'' hkeeps' => ?_
        refine .bind World.newLazy_ends fun cell world''' hkeeps'' => ?_
        exact .pure (hkeeps'.2.trans hkeeps'')
      · rw [Need.recipe, Recipe.run_bind]
        exact hhandle.bind fun _ _ hkeeps' => .pure hkeeps'.2
  · refine .bind World.nextSerial_ends fun serial world'' hkeeps' => ?_
    exact .pure (hkeeps.2.trans hkeeps')

end

/-! ## Going through a plan -/

namespace Bindings.Serve

variable {providers : List (Key × Provider)}

theorem self (h : bindings.Serve id providers) {key : Key} (hkey : (key == .injector) = true) :
    bindings.get? key = some (.self id) := by
  rw [h.wf.get?_eq_some_iff, h.toList_eq]
  exact ⟨.injector, List.mem_cons_self, BEq.symm hkey⟩

theorem provider (h : bindings.Serve id providers) {key key' : Key} {provider : Provider}
    (hmem : (key, provider) ∈ providers) (hkey : (key == key') = true) :
    bindings.get? key' = some provider := by
  rw [h.wf.get?_eq_some_iff, h.toList_eq]
  exact ⟨key, List.mem_cons_of_mem _ hmem, hkey⟩

end Bindings.Serve

/-- Requests for the keys of instructions end with an instance, if they may be nested deeper than
    there are instructions and no singleton from `base` to `limit` is being made. -/
def Injector.Answers (id : InjectorId) (bindings : Bindings) (base limit : CellId)
    (instructions : List Instruction) : Prop :=
  ∀ i ∈ instructions, ∀ key, (i.key == key) = true → ∀ depth world, instructions.length < depth →
    world.Ready id base limit →
      ((rootResolver id bindings).getInstance depth key).Ends world fun _ => world.Keeps

namespace Injector.Answers

variable {instructions : List Instruction} {all : List (Key × Provider)}

/-- The factory of an instruction whose dependencies are the injector and instructions before. -/
theorem factory_ends (h : Answers id bindings base limit instructions)
    (hserve : bindings.Serve id all) {i : Instruction} (craft : Craft) (calls : CounterId)
    (hdependencies : ∀ d ∈ i.dependencies, (d == .injector) = false →
      ∃ j ∈ instructions, (j.key == d) = true)
    {depth : Nat} (hdepth : instructions.length < depth) (hready : world.Ready id base limit) :
    ((Provider.factory calls (i.recipe craft)).get ((rootResolver id bindings).getInstance depth)
      (rootResolver id bindings).find).Ends world fun _ => world.Keeps := by
  refine .bind (World.countCall_ends calls) fun call counted hkeeps => ?_
  have hready := hready.keeps hkeeps
  have hself : ∀ world', counted.Keeps world' → ∀ key, (key == .injector) = true →
      ((rootResolver id bindings).getInstance depth key).Ends world' fun value world'' =>
        value = .injector id ∧ world'.Keeps world'' := fun world' hkeeps' key hkey =>
    self_ends (hready.keeps hkeeps') (hserve.self hkey) (Nat.zero_lt_of_lt hdepth)
  refine (Instruction.recipe_ends call (fun d hd world' hkeeps' => ?_) fun world' hkeeps' =>
    hself world' hkeeps' .injector BEq.rfl).mono fun _ _ hkeeps' => hkeeps.trans hkeeps'
  cases hinjector : d == .injector with
  | true => exact (hself world' hkeeps' d hinjector).mono fun _ _ h => h.2
  | false =>
    obtain ⟨j, hj, hsame⟩ := hdependencies d hd hinjector
    exact h j hj d hsame depth world' hdepth (hready.keeps hkeeps')

/-- One more instruction whose provider ends with an instance. -/
theorem concat {limit' : CellId} (h : Answers id bindings base limit instructions)
    (hle : limit ≤ limit') {i : Instruction} {provider : Provider}
    (hprovider : ∀ key, (i.key == key) = true → bindings.get? key = some provider)
    (hget : ∀ depth world, instructions.length < depth → world.Ready id base limit' →
      (provider.get ((rootResolver id bindings).getInstance depth)
        (rootResolver id bindings).find).Ends world fun _ => world.Keeps) :
    Answers id bindings base limit' (instructions ++ [i]) := by
  intro j hj key hsame depth world hdepth hready
  rw [List.length_append, List.length_singleton] at hdepth
  rcases List.mem_append.1 hj with hj | hj
  · exact h j hj key hsame depth world (Nat.lt_of_succ_lt hdepth) (hready.mono hle)
  · obtain rfl := List.mem_singleton.1 hj
    cases depth with
    | zero => exact absurd hdepth (Nat.not_lt_zero _)
    | succ depth =>
      exact getInstance_ends (hprovider key hsame)
        (hget depth world (Nat.lt_of_succ_lt_succ hdepth) hready)

end Injector.Answers

/-- Requests for the keys of a plan end with an instance. -/
theorem Deployed.answers {craft : Instruction → Craft} {instructions : List Instruction}
    {providers all : List (Key × Provider)} (hserve : bindings.Serve id all)
    (h : Deployed craft base instructions providers limit) :
    providers ⊆ all → Plan.Ordered instructions →
      Injector.Answers id bindings base limit instructions := by
  induction h with
  | nil => exact fun _ _ i hi => by cases hi
  | @factory instructions providers limit i calls _ _ ih =>
    intro hsub hordered
    obtain ⟨hbefore, hdependencies⟩ := hordered.of_concat
    have hmem := hsub (List.mem_append_right _ List.mem_cons_self)
    have hanswers := ih (fun p hp => hsub (List.mem_append_left _ hp)) hbefore
    refine hanswers.concat (Nat.le_refl limit) (fun key hsame => hserve.provider hmem hsame) ?_
    exact fun depth world hdepth hready =>
      hanswers.factory_ends hserve (craft i) calls hdependencies hdepth hready
  | @singleton instructions providers limit i calls hdeployed _ ih =>
    intro hsub hordered
    obtain ⟨hbefore, hdependencies⟩ := hordered.of_concat
    have hmem := hsub (List.mem_append_right _ List.mem_cons_self)
    have hanswers := ih (fun p hp => hsub (List.mem_append_left _ hp)) hbefore
    refine hanswers.concat (Nat.le_succ limit) (fun key hsame => hserve.provider hmem hsame) ?_
    intro depth world hdepth hready
    have hidle := hready.idle limit hdeployed.base_le (Nat.lt_succ_self limit)
    refine World.makeOnce_ends hidle ?_
    exact hanswers.factory_ends hserve (craft i) calls hdependencies hdepth
      (hready.mono (Nat.le_succ limit)).started

/-! ## Results -/

/-- The keys that a program may ask for: those of the plan, those behind the deferred handles of
    its factories, and what the targets need. -/
inductive Wiring.Requested (wiring : Wiring) (targets : List TargetDecl) : Key → Prop
  | planned {i key} : i ∈ wiring.plan.instructions → (i.key == key) = true →
    Requested wiring targets key
  | deferred {i key} : i ∈ wiring.plan.instructions → key ∈ i.deferred →
    Requested wiring targets key
  | target {target r} : target ∈ targets → r ∈ target.requirements →
    Requested wiring targets r.2.required

/-- What can be asked for is the injector or has an instruction. -/
theorem Wired.requested_cases {modules : List ModuleDecl} {targets : List TargetDecl}
    {wiring : Wiring} (h : Wired modules wiring) (hwell : WellDeclared modules targets)
    {key : Key} (hkey : wiring.Requested targets key) :
    (key == .injector) = true ∨ ∃ i ∈ wiring.plan.instructions, (i.key == key) = true := by
  suffices hcontains : wiring.graph.graph.contains key = true by
    cases hinjector : key == .injector with
    | true => exact Or.inl rfl
    | false =>
      rw [h.plan_eq]
      exact Or.inr (Plan.exists_instruction wiring.graph hcontains hinjector)
  cases hkey with
  | @planned i key hi hsame =>
    rw [h.plan_eq] at hi
    obtain ⟨-, node, hnode, -⟩ := Plan.instruction_ofGraph wiring.graph hi
    rw [← Graph.contains_congr hsame]
    exact Graph.contains_iff_node?.2 ⟨node, hnode⟩
  | @deferred i key hi hdeferred =>
    rw [h.plan_eq] at hi
    obtain ⟨-, node, hnode, hi⟩ := Plan.instruction_ofGraph wiring.graph hi
    rw [hi] at hdeferred
    exact wiring.graph.provided hnode key (List.mem_append_right _ hdeferred)
  | target htarget hr => exact h.built.contains_iff.2 (hwell.targets _ htarget _ hr)

/-- If an analysis succeeds, the component of its plan makes an injector, and as long as that is
    alive it answers all requests for keys of the plan, for keys behind deferred handles and for
    what the targets need, in any order: none is nested deeper than the plan is long. -/
theorem analyse_resolves {options : ReportOptions} {modules : List ModuleDecl}
    {targets : List TargetDecl} {log : Array Event} {wiring : Wiring}
    (h : ((analyse options modules targets).run log).1 = .ok wiring)
    (craft : Instruction → Craft) (depth : Nat) (world : World) :
    (wiring.plan.inject craft depth).Ends world fun id created =>
      ∀ depth' > wiring.plan.size, ∀ keys : List Key,
        (∀ key ∈ keys, wiring.Requested targets key) →
        (keys.mapM (World.request depth' id)).Ends created fun values _ =>
          values.length = keys.length := by
  obtain ⟨hok, hwired⟩ := analyse_ensures options modules targets log
  have hwell : WellDeclared modules targets := hok.1 ⟨wiring, h⟩
  have hwired := hwired wiring h
  have hordered : Plan.Ordered wiring.plan.instructions := by
    rw [hwired.plan_eq]
    exact Plan.ordered_ofGraph wiring.graph
  refine (Plan.component_ends craft wiring.plan world).bind ?_
  rintro _ configured ⟨providers, limit, rfl, hextends, hdeployed⟩
  have hdistinct : (Key.injector :: providers.map (·.1)).Pairwise fun a b => (a == b) = false := by
    rw [hdeployed.keys_eq, hwired.plan_eq]
    refine List.pairwise_cons.2 ⟨fun key hkey => ?_, ?_⟩
    · obtain ⟨i, hi, rfl⟩ := List.mem_map.1 hkey
      rw [BEq.comm]
      exact (Plan.instruction_ofGraph wiring.graph hi).1
    · exact List.pairwise_map.2 (Plan.distinct_ofGraph wiring.graph)
  refine (Injector.createRoot_ends depth providers hdistinct).mono ?_
  rintro id created ⟨injector, bindings, halive, hresolver, hserve, hflags⟩
  have hanswers := hdeployed.answers hserve (List.Subset.refl providers) hordered
  have hready : created.Ready id world.singletons.size limit :=
    ⟨⟨injector, halive⟩, fun cell hbase _ => by rw [hflags, hextends.idle cell hbase]⟩
  intro depth' hdepth keys hkeys
  refine (Run.mapM_ends fun key hkey world' hkeeps => ?_).mono fun _ _ hends => hends.1
  have halive' : world'.injector? id = some injector := by rw [hkeeps.injector?, halive]
  refine .get ?_
  simp only [halive', hresolver]
  rcases hwired.requested_cases hwell (hkeys key hkey) with hinjector | ⟨i, hi, hsame⟩
  · exact (Injector.self_ends (hready.keeps hkeeps) (hserve.self hinjector)
      (Nat.zero_lt_of_lt hdepth)).mono fun _ _ hself => hself.2
  · exact hanswers i hi key hsame depth' world' hdepth (hready.keeps hkeeps)

def engine : Key := .plain "Engine"

def car : Key := .plain "Car"

/-- A module in which cars share an engine, and each car has a handle on further cars. -/
def garage : ModuleDecl :=
  ⟨"Garage", [⟨.method "Garage" "engine", engine, [], some .singleton⟩,
    ⟨.method "Garage" "car", car, [engine, .unqualified (.lazyOf car.type)], none⟩]⟩

/-- A driver, who needs a car and now and then its engine. -/
def driver : TargetDecl :=
  ⟨.plain "Driver", [.constructor [car, .unqualified (.providerOf engine.type)]]⟩

/-- A factory that makes an object of its parts. -/
def assembly : Craft :=
  ⟨fun key => key.type.render, fun _ => true, fun _ parts serial => .object "Car" "" serial parts⟩

/-- Cars need engines, and nothing else is needed. -/
theorem demands_garage {a b : Key} (h : Demands [garage] a b) :
    (car == a) = true ∧ (engine == b) = true := by
  have hdeclared : ∀ p ∈ declared [garage], ∀ d ∈ p.dependencies, d.deferredTarget? = none →
      (p.key == car) = true ∧ (d == engine) = true := by
    decide
  obtain ⟨p, hp, hkey, d, hd, hnone, hsame⟩ := h
  obtain ⟨hcar, hengine⟩ := hdeclared p hp d hd hnone
  exact ⟨BEq.trans (BEq.symm hcar) hkey, BEq.trans (BEq.symm hengine) hsame⟩

theorem garage_wellDeclared : WellDeclared [garage] [driver] where
  distinct := by decide
  not_injector := by decide
  concrete p hp := by
    refine (TypeExpr.isConcrete_iff _).1 ?_
    revert p
    decide
  supplied := by
    unfold Supplied
    decide
  acyclic key hcycle := by
    obtain ⟨_, hfirst, -⟩ := TransGen.head'_iff.1 hcycle
    obtain ⟨_, -, hlast⟩ := TransGen.tail'_iff.1 hcycle
    have hsame := BEq.trans (demands_garage hfirst).1 (BEq.symm (demands_garage hlast).2)
    revert hsame
    decide
  targets := by
    unfold Supplied
    decide

/-- The driver gets cars and the engine, in any order. -/
theorem garage_resolves :
    ∃ wiring, ((analyse .default [garage] [driver]).run #[]).1 = .ok wiring ∧
      (wiring.plan.inject (fun _ => assembly) 0).Ends .empty fun id created =>
        ([car, engine, car].mapM (World.request (wiring.plan.size + 1) id)).Ends created
          fun values _ => values.length = 3 := by
  obtain ⟨wiring, h⟩ := (analyse_ensures .default [garage] [driver] #[]).1.2 garage_wellDeclared
  have hkeys : ∀ key ∈ driver.requirements.map (·.2.required), wiring.Requested [driver] key := by
    intro key hkey
    obtain ⟨r, hr, rfl⟩ := List.mem_map.1 hkey
    exact .target List.mem_cons_self hr
  have hcar : wiring.Requested [driver] car := hkeys car List.mem_cons_self
  have hengine : wiring.Requested [driver] engine :=
    hkeys engine (List.mem_cons_of_mem _ List.mem_cons_self)
  refine ⟨wiring, h, (analyse_resolves h (fun _ => assembly) 0 .empty).mono ?_⟩
  intro id created hends
  refine hends _ (Nat.lt_succ_self _) [car, engine, car] ?_
  simp [hcar, hengine]

end Injection
