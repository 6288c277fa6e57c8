/-
  A chain of injectors answers as one injector would.

  A provider is found by walking up a chain of injectors, but what it needs is
  asked of the injector that the request came through.  So it makes no
  difference where in the chain a provider was registered.

  * `Injector.held`: the provider that the nearest injector of a chain holds;
  * `Injector.Lineage.getInstance_succ`: one step of a request through the last
    injector of a chain without interceptors;
  * `Injector.Lineage.exists_single`: an injector without a parent can hold just
    what the chain holds;
  * `Injector.Lineage.requests_as_single`: requests through the last injector of
    the chain end as they do through such an injector.
-/
import Injection.Proofs.Agreement
import Injection.Proofs.Component
import Injection.Proofs.Overriding

namespace Injection

open Run (Agrees Spares)

/-! ## Requests in a row -/

/-- Asks an injector for the instances of keys in turn, whether a request before was answered or
    not. -/
def World.requests (depth : Nat) (id : InjectorId) (keys : List Key) :
    Run (List (Except Stop Instance)) :=
  keys.mapM fun key => Run.ending (World.request depth id key)

/-- Two worlds that differ in what the number `id` stands for, and perhaps in injectors that are
    alive in both. -/
structure World.Replaced (id : InjectorId) (last single : Injector) (a b : World) : Prop where
  alike : World.Alike a b a b
  alive : ∀ id, (a.injector? id).isSome = (b.injector? id).isSome
  holds : a.injector? id = some last
  holds' : b.injector? id = some single

namespace World.Replaced

variable {id : InjectorId} {last single : Injector} {a b : World}

/-- In the place of an injector that is alive any other can be put. -/
theorem of_holds (h : a.injector? id = some last) (single : Injector) :
    Replaced id last single a
      { a with injectors := a.injectors.setIfInBounds id (.live single) } := by
  have hlt : id < a.injectors.size := by
    refine Nat.lt_of_not_le fun hout => ?_
    rw [injector?, Array.getElem?_eq_none hout] at h
    cases h
  have hplaced : ({ a with injectors := a.injectors.setIfInBounds id (.live single) } :
      World).injector? id = some single := by
    rw [injector?, Array.getElem?_setIfInBounds_self_of_lt hlt]
  refine ⟨⟨rfl, rfl, rfl, rfl, rfl, rfl, rfl⟩, fun other => ?_, h, hplaced⟩
  by_cases hother : id = other
  · rw [← hother, h, hplaced, Option.isSome_some, Option.isSome_some]
  · rw [injector?, injector?, Array.getElem?_setIfInBounds_ne hother]

theorem request_agrees (h : Replaced id last single a b)
    (hfind : (last.resolver id).find = (single.resolver id).find)
    (hget : (last.resolver id).getProvider = (single.resolver id).getProvider) (depth : Nat)
    (key : Key) : Agrees a b (request depth id key) (request depth id key) := by
  refine .get fun a' b' h' => ?_
  simp only [h'.injector?_eq, h'.injector?_eq', h.holds, h.holds']
  exact Resolver.getInstance_agrees h.alive hfind hget depth key

/-- Injectors that find and give the same providers answer all requests in a row alike. -/
theorem requests_agree (h : Replaced id last single a b)
    (hfind : (last.resolver id).find = (single.resolver id).find)
    (hget : (last.resolver id).getProvider = (single.resolver id).getProvider) (depth : Nat)
    (keys : List Key) : Agrees a b (requests depth id keys) (requests depth id keys) :=
  .mapM (fun key => .ending (h.request_agrees hfind hget depth key)) keys

end World.Replaced

/-- Makes instances as `Resolver.getInstance` does, but everyone who asks for the injector is told a
    given one, and no provider is asked. -/
def Resolver.getInstanceFor (id : InjectorId) : Nat → Resolver → Key → Run Instance
  | 0, _, _ => throw .tooDeep
  | depth + 1, resolver, key =>
    if key == .injector then pure (.injector id)
    else do
      let provider ← Run.lookup (resolver.getProvider key)
      provider.get (resolver.getInstanceFor id depth) resolver.find

namespace Injector

/-- The provider that the first injector of a chain to hold a key holds for it. -/
def held (chain : List (InjectorId × Injector)) (key : Key) : Option Provider :=
  chain.findSome? fun member => member.2.registry.bindings.get? key

/-! ## Lookups through a chain -/

variable {nearest : InjectorId × Injector} {ancestors : List (InjectorId × Injector)}

namespace Lineage

theorem find_eq (h : Lineage [] [] (nearest :: ancestors)) :
    (nearest.2.resolver nearest.1).find = fun key => pure (held (nearest :: ancestors) key) := by
  have hplain : Lineage (([] : List Bindings).map .overriding) [] (nearest :: ancestors) := h
  funext key
  rw [resolver, h.madeFrom.providerInterceptors_eq]
  exact hplain.find_inner key

theorem getProvider_eq_held (h : Lineage [] [] (nearest :: ancestors)) (key : Key) :
    (nearest.2.resolver nearest.1).getProvider key =
      match held (nearest :: ancestors) key with
      | some provider => pure provider
      | none => throw (.notProvided key) := by
  have hfind := congrFun h.find_eq key
  rw [resolver, h.madeFrom.providerInterceptors_eq, Resolver.find] at hfind
  rw [resolver, h.madeFrom.providerInterceptors_eq, Resolver.getProvider, Lookup.chain,
    Lookup.required, hfind]
  cases held (nearest :: ancestors) key with
  | some provider => rfl
  | none => rfl

/-- A provider found anywhere in the chain asks the nearest injector for what it needs. -/
theorem getInstance_succ (h : Lineage [] [] (nearest :: ancestors)) (depth : Nat) (key : Key) :
    (nearest.2.resolver nearest.1).getInstance (depth + 1) key =
      match held (nearest :: ancestors) key with
      | some provider =>
        provider.get ((nearest.2.resolver nearest.1).getInstance depth)
          (nearest.2.resolver nearest.1).find
      | none => Run.fail (.notProvided key) := by
  rw [Resolver.getInstance, h.getProvider_eq_held]
  cases held (nearest :: ancestors) key with
  | some provider => rfl
  | none => rfl

/-- The nearest injector holds itself, whatever its ancestors hold. -/
theorem held_injector (h : Lineage [] [] (nearest :: ancestors)) {key : Key}
    (hkey : (key == .injector) = true) :
    held (nearest :: ancestors) key = some (.self nearest.1) := by
  have hitself := h.providesItself
  rw [held, List.findSome?_cons, hitself.wf.get?_congr hkey, hitself.self]

/-- Whoever asks for the injector in the course of a request, at any depth and from any provider,
    gets the injector that the request came through. -/
theorem getInstance_agrees_for (h : Lineage [] [] (nearest :: ancestors)) {world : World}
    (halive : (world.injector? nearest.1).isSome = true) (depth : Nat) (key : Key) :
    Agrees world world ((nearest.2.resolver nearest.1).getInstance depth key)
      ((nearest.2.resolver nearest.1).getInstanceFor nearest.1 depth key) := by
  induction depth generalizing key with
  | zero => exact .throw .tooDeep
  | succ depth ih =>
    rw [Resolver.getInstanceFor]
    split
    · next hkey =>
      obtain ⟨injector, hinjector⟩ := Option.isSome_iff_exists.1 halive
      rw [h.getInstance_succ, h.held_injector hkey]
      intro a b hab
      have hrun : (Provider.get ((nearest.2.resolver nearest.1).getInstance depth)
          (nearest.2.resolver nearest.1).find (.self nearest.1)).run.run a =
            (.ok (.injector nearest.1), a) := by
        rw [Provider.get, Run.get_bind, hab.injector?_eq, hinjector]
        rfl
      rw [hrun]
      exact ⟨rfl, hab⟩
    · exact .bind (.lookup _) fun provider => provider.get_agrees (fun _ => rfl) ih

/-! ## One injector for a chain -/

/-- What the injectors of a chain hold besides themselves, the nearest first. -/
def pairs (chain : List (InjectorId × Injector)) : List (Key × Provider) :=
  (chain.flatMap (·.2.registry.bindings.toList)).filter fun pair => !(Key.injector == pair.1)

theorem lookup_pairs_injector (chain : List (InjectorId × Injector)) :
    (pairs chain).lookup .injector = none :=
  List.lookup_eq_none_iff.2 fun _ hmem => (List.mem_filter.1 hmem).2

theorem lookup_pairs {chain : List (InjectorId × Injector)}
    (hwf : ∀ member ∈ chain, member.2.registry.bindings.WellFormed) {key : Key}
    (hkey : (key == .injector) = false) : (pairs chain).lookup key = held chain key := by
  have hfilter : (pairs chain).lookup key =
      (chain.flatMap (·.2.registry.bindings.toList)).lookup key := by
    refine SlotTable.lookup_filter fun pair hsame => ?_
    rw [Bool.not_eq_true', ← Bool.not_eq_true]
    intro hinjector
    rw [BEq.trans hsame (BEq.symm hinjector)] at hkey
    cases hkey
  rw [hfilter]
  clear hfilter
  induction chain with
  | nil => rfl
  | cons member chain ih =>
    rw [List.flatMap_cons, List.lookup_append, ih fun member' hmem => hwf member' (.tail _ hmem),
      ← (hwf member (.head _)).get?_eq_lookup, held, held, List.findSome?_cons]
    cases member.2.registry.bindings.get? key with
    | some provider => rfl
    | none => rfl

theorem wellFormed (h : Lineage [] [] (nearest :: ancestors)) :
    ∀ member ∈ nearest :: ancestors, member.2.registry.bindings.WellFormed := by
  induction ancestors generalizing nearest with
  | nil =>
    intro member hmember
    rw [List.mem_singleton.1 hmember]
    exact h.providesItself.wf
  | cons parent ancestors ih =>
    intro member hmember
    rcases List.mem_cons.1 hmember with rfl | hmember
    · exact h.providesItself.wf
    · exact ih h.tail member hmember

/-- An injector without a parent can hold for every key what the nearest injector of the chain
    holds, under the same number. -/
theorem exists_single (h : Lineage [] [] (nearest :: ancestors)) :
    ∃ single : Injector, Lineage [] [] [(nearest.1, single)] ∧
      ∀ key, single.registry.bindings.get? key = held (nearest :: ancestors) key := by
  let table : Bindings := .ofPairs (pairs (nearest :: ancestors))
  have hwf : table.WellFormed := .ofPairs _
  have hget : ∀ key, table.toList.lookup key = (pairs (nearest :: ancestors)).lookup key :=
    fun key => by rw [← hwf.get?_eq_lookup, SlotTable.get?_ofPairs]
  have hnew : ∀ pair ∈ table.toList, (Key.injector == pair.1) = false := by
    have hnone := (hget .injector).trans (lookup_pairs_injector _)
    exact fun pair hmem => by
      simpa only [bne, Bool.not_eq_true'] using List.lookup_eq_none_iff.1 hnone pair hmem
  have hdistinct : (Key.injector :: table.toList.map (·.1)).Pairwise
      fun a b => (a == b) = false := by
    refine List.pairwise_cons.2 ⟨?_, SlotTable.keys_eq_map ▸ hwf.keys_distinct⟩
    simpa using hnew
  -- in a world where all smaller numbers are taken, the injector gets the number of the last one
  let taken : World := { World.empty with injectors := .replicate nearest.1 .gone }
  have hcreate : (createRoot 0 [] [] _).Ends taken _ := createRoot_ends 0 table.toList hdistinct
  obtain ⟨id, made, hrun, single, bindings, hlive, hresolver, hserve, -⟩ := hcreate
  obtain rfl : id = nearest.1 := by
    rw [(create_gives hrun).1]
    exact Array.size_replicate
  have hlineage : Lineage [] [] [(nearest.1, single)] := .root hrun hlive
  refine ⟨single, hlineage, fun key => ?_⟩
  have hmade : single.MadeFrom none (([] : List Bindings).map .overriding) [] := hlineage.madeFrom
  have hinner : single.inner = .registry single.registry.bindings none := hmade.inner_eq
  have hbindings : single.registry.bindings = bindings := by
    rw [resolver, hinner, rootResolver] at hresolver
    injection hresolver with _ _ hregistry
    injection hregistry
  rw [hbindings, hserve.wf.get?_eq_lookup, hserve.toList_eq, List.lookup_cons]
  cases hkey : key == .injector with
  | true => exact (h.held_injector hkey).symm
  | false => exact (hget key).trans (lookup_pairs h.wellFormed hkey)

/-- Requests in a row through the last injector of a chain without interceptors end as they do
    through an injector without a parent that holds for every key what the nearest injector of the
    chain holds.  At every depth, what a provider needs is asked of the last injector, wherever in
    the chain the provider was registered, and so is the injector itself. -/
theorem requests_as_single {id : InjectorId} {last : Injector}
    (h : Lineage [] [] ((id, last) :: ancestors)) :
    (∃ single : Injector, Lineage [] [] [(id, single)] ∧
      ∀ key, single.registry.bindings.get? key = held ((id, last) :: ancestors) key) ∧
    (∀ single : Injector, Lineage [] [] [(id, single)] →
      (∀ key, single.registry.bindings.get? key = held ((id, last) :: ancestors) key) →
      ∀ a b, World.Replaced id last single a b → ∀ depth keys,
        ((World.requests depth id keys).run.run a).1 =
            ((World.requests depth id keys).run.run b).1 ∧
          World.Alike a b ((World.requests depth id keys).run.run a).2
            ((World.requests depth id keys).run.run b).2) ∧
    (∀ depth key, (last.resolver id).getInstance (depth + 1) key =
      match held ((id, last) :: ancestors) key with
      | some provider =>
        provider.get ((last.resolver id).getInstance depth) (last.resolver id).find
      | none => Run.fail (.notProvided key)) ∧
    (∀ world : World, (world.injector? id).isSome = true → ∀ depth key,
      ((last.resolver id).getInstance depth key).run.run world =
        ((last.resolver id).getInstanceFor id depth key).run.run world) := by
  refine ⟨h.exists_single, ?_, h.getInstance_succ, ?_⟩
  · intro single hsingle hheld a b hreplaced depth keys
    have hsame : held [(id, single)] = held ((id, last) :: ancestors) :=
      funext fun key => (List.findSome?_singleton ..).trans (hheld key)
    refine hreplaced.requests_agree ?_ ?_ depth keys a b hreplaced.alike
    · rw [h.find_eq, hsingle.find_eq, hsame]
    · funext key
      rw [h.getProvider_eq_held, hsingle.getProvider_eq_held, hsame]
  · intro world halive depth key
    obtain ⟨hvalue, hworld⟩ := h.getInstance_agrees_for halive depth key world world (.refl world)
    exact Prod.ext hvalue hworld.eq

end Lineage

end Injector

/-! ## A shared service and its settings -/

namespace Settings

/-- A factory that makes a service from the settings it is given. -/
def service : Recipe Instance := do
  let settings ← Recipe.request (.plain "Settings")
  .serial fun serial => .done (.object "Service" "service" serial [.made settings])

/-- A world with a counter for each of two factories, and a cell for one singleton. -/
def start : World := { World.empty with counters := #[0, 0], singletons := #[⟨none, false⟩] }

def first : Injector.Generation [] [] :=
  .root start
    [.provider (.plain "Settings") (.text "root"),
      .provider (.plain "Service") (.singleton 0 (.factory 0 fun _ => service)),
      .provider (.plain "Owner") (.factory 1 fun _ => Recipe.request .injector)]
    (by decide +kernel)

def second : Injector.Generation [] [] :=
  first.child [.provider (.plain "Settings") (.text "child")] (by decide +kernel)

def root : Injector := first.injector

def child : Injector := second.injector

set_option maxRecDepth 4000 in
theorem lineage : Injector.Lineage [] [] [(1, child), (0, root)] := second.lineage

/-- The service that is made for the child. -/
def served : Instance := .object "Service" "service" 1 [.made (.text "child")]

/-- The world in which the service was made. -/
def serving : World :=
  { second.world with
    singletons := #[⟨some served, false⟩], counters := #[1, 0], serial := 1,
    journal.events := second.world.journal.events.push .singletonMade }

set_option maxRecDepth 4000 in
theorem service_made :
    Gives (Run.ending (World.request 3 1 (.plain "Service"))) second.world (.ok served) serving :=
  rfl

/-- The world in which another injector has the number of the child. -/
def flattened (single : Injector) : World :=
  { second.world with injectors := second.world.injectors.setIfInBounds 1 (.live single) }

set_option maxRecDepth 4000 in
theorem replaced (single : Injector) :
    World.Replaced 1 child single second.world (flattened single) :=
  .of_holds rfl single

set_option maxRecDepth 4000 in
/-- An injector without a parent answers like the child of the root: the service of the root is
    made with the settings of the child. -/
theorem requests_child : ∃ single : Injector, Injector.Lineage [] [] [(1, single)] ∧
    ((World.requests 3 1 [.plain "Service", .plain "Owner", .plain "Service", .plain "Car"]).run.run
      (flattened single)).1 =
      .ok [.ok (.object "Service" "service" 1 [.made (.text "child")]), .ok (.injector 1),
        .ok (.object "Service" "service" 1 [.made (.text "child")]),
        .error (.fault (.notProvided (.plain "Car")))] := by
  obtain ⟨⟨single, hsingle, hheld⟩, hrequests, -⟩ := lineage.requests_as_single
  obtain ⟨hsame, -⟩ := hrequests single hsingle hheld second.world (flattened single)
    (replaced single) 3 [.plain "Service", .plain "Owner", .plain "Service", .plain "Car"]
  refine ⟨single, hsingle, hsame.symm.trans ?_⟩
  rw [World.requests, List.mapM_cons, service_made.bind_run]
  rfl

end Settings

end Injection
