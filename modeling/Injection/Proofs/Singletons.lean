/-
  Singletons over a whole run.

  A delegate may ask for anything while it runs, its own singleton included, and
  may go on after it was refused.  So a request for a singleton can be made at
  any moment of another one.

  * `Moment`: a world, and what the world does not show: the singletons whose
    delegates are running just now, and the results stored so far;
  * `Moment.Next`, `Moment.Reaches`: what can happen to singletons, step by step;
  * `Moment.Sound`: flags and instances are what the moment says, which every
    step preserves;
  * `Run.Orderly`: a computation whose effect on singletons consists of such
    steps; all that providers do is orderly;
  * `Moment.Reaches.singletons_serve`: what a request for a singleton does, at
    any moment.
-/
import Injection.Container.Configuration
import Injection.Proofs.Effects
import Injection.Proofs.Run
import Mathlib.Logic.Relation

namespace Injection

/-! ## One request for a singleton -/

namespace World

variable {world : World} {cell : CellId}

/-- The world in which an event was reported. -/
def reported (world : World) (event : Event) : World :=
  { world with journal := { world.journal with events := world.journal.events.push event } }

theorem size_changed (world : World) (cell : CellId) (f : SingletonCell → SingletonCell) :
    (world.changed cell f).singletons.size = world.singletons.size := Array.size_modify

theorem changed_of_le (h : world.singletons.size ≤ cell) (f : SingletonCell → SingletonCell) :
    world.changed cell f = world := by
  have hsame : world.singletons.modify cell f = world.singletons := by
    apply Array.ext_getElem?
    intro other
    rw [Array.getElem?_modify]
    split
    · next heq =>
      rw [← heq, Array.getElem?_eq_none h]
      rfl
    · rfl
  rw [changed, hsame]

theorem lt_size_of_making (h : (world.singleton cell).making = true) :
    cell < world.singletons.size := by
  refine Nat.lt_of_not_le fun hout => ?_
  rw [singleton, Array.getD_eq_getD_getElem?, Array.getElem?_eq_none hout] at h
  cases h

theorem lt_size_of_value {value : Instance} (h : (world.singleton cell).value = some value) :
    cell < world.singletons.size := by
  refine Nat.lt_of_not_le fun hout => ?_
  rw [singleton, Array.getD_eq_getD_getElem?, Array.getElem?_eq_none hout] at h
  cases h

theorem making_started (h : cell < world.singletons.size) :
    ((world.started cell).singleton cell).making = true := by
  rw [started, singleton_changed, if_pos ⟨rfl, h⟩]

theorem value_started (world : World) (cell other : CellId) :
    ((world.started cell).singleton other).value = (world.singleton other).value := by
  rw [started, singleton_changed]
  split <;> rfl

theorem value_stopped (world : World) (cell other : CellId) :
    ((world.stopped cell).singleton other).value = (world.singleton other).value := by
  rw [stopped, singleton_changed]
  split <;> rfl

theorem value_filled (h : cell < world.singletons.size) (value : Instance) :
    ((world.filled cell value).singleton cell).value = some value := by
  rw [filled, singleton_changed, if_pos ⟨rfl, h⟩]

theorem value_filled_of_ne {other : CellId} (h : other ≠ cell) (value : Instance) :
    ((world.filled cell value).singleton other).value = (world.singleton other).value := by
  rw [filled, singleton_changed, if_neg fun hother => h hother.1]

theorem makeOnce_of_value {value : Instance} (h : (world.singleton cell).value = some value)
    (delegate : Run Instance) :
    (World.makeOnce cell delegate).run.run world = (.ok value, world) := by
  rw [makeOnce, Run.get_bind]
  dsimp only
  rw [h]
  rfl

theorem makeOnce_of_making (hvalue : (world.singleton cell).value = none)
    (hmaking : (world.singleton cell).making = true) (delegate : Run Instance) :
    (World.makeOnce cell delegate).run.run world =
      (.error (.fault .reentrantSingleton), world) := by
  rw [makeOnce, Run.get_bind]
  dsimp only
  rw [hvalue, hmaking]
  rfl

/-- What a singleton does with the end of its delegate. -/
def keep (cell : CellId) (outcome : Except Stop Instance) : Run Instance := do
  World.modifySingleton cell fun state => { state with making := false }
  let value ← Run.ofEnding outcome
  World.report .singletonMade
  World.modifySingleton cell fun state => { state with value := some value }
  return value

/-- The delegate of a singleton that has no instance is run while the flag is set, which is taken
    back however it ends; only a value is kept. -/
theorem makeOnce_of_idle (hvalue : (world.singleton cell).value = none)
    (hidle : (world.singleton cell).making = false) (delegate : Run Instance) :
    (World.makeOnce cell delegate).run.run world =
      match delegate.run.run (world.started cell) with
      | (.ok value, made) =>
        (.ok value, ((made.stopped cell).reported .singletonMade).filled cell value)
      | (.error stop, made) => (.error stop, made.stopped cell) := by
  rw [makeOnce, Run.get_bind]
  dsimp only
  rw [hvalue, hidle]
  show (Run.ending delegate >>= keep cell).run.run (world.started cell) = _
  have hending : (Run.ending delegate).run.run (world.started cell) =
      (.ok (delegate.run.run (world.started cell)).1,
        (delegate.run.run (world.started cell)).2) := rfl
  rw [ExceptT.run_bind, StateT.run_bind, hending]
  rcases delegate.run.run (world.started cell) with ⟨stop | value, made⟩
  · rfl
  · rfl

end World

/-! ## Moments -/

/-- A world at a moment of a run, with what the world does not show. -/
structure Moment where
  world : World
  /-- The singletons whose delegates are running, the one begun last first. -/
  making : List CellId
  /-- The results of delegates that were stored, the last one first. -/
  stored : List (CellId × Instance)

namespace Moment

/-- What can happen to singletons in one step. -/
inductive Next : Moment → Moment → Prop
  /-- Something else in the world changes. -/
  | other {moment world'} : world'.singletons = moment.world.singletons →
    Next moment { moment with world := world' }
  /-- A new singleton is there. -/
  | adds {moment} :
    Next moment { moment with
      world := { moment.world with
        singletons := moment.world.singletons.push ⟨none, false⟩ } }
  /-- A delegate begins to run. -/
  | begins {moment} (cell) : cell < moment.world.singletons.size →
    (moment.world.singleton cell).value = none →
    (moment.world.singleton cell).making = false →
    Next moment { moment with
      world := moment.world.started cell, making := cell :: moment.making }
  /-- The delegate begun last stops without a value. -/
  | fails {world cell making stored} :
    Next ⟨world, cell :: making, stored⟩ ⟨world.stopped cell, making, stored⟩
  /-- The delegate begun last ends with a value. -/
  | finishes {world cell making stored} (value) :
    Next ⟨world, cell :: making, stored⟩
      ⟨(world.stopped cell).filled cell value, making, (cell, value) :: stored⟩

def Reaches : Moment → Moment → Prop := Relation.ReflTransGen Next

variable {moment moment' : Moment}

/-! ## What every step preserves -/

/-- The flags of a world are set for the singletons whose delegates are running, these have no
    instance yet, and the instances are the results that were stored, at most one for each. -/
structure Sound (moment : Moment) : Prop where
  making_iff : ∀ cell, (moment.world.singleton cell).making = true ↔ cell ∈ moment.making
  making_distinct : moment.making.Nodup
  pending : ∀ cell ∈ moment.making, (moment.world.singleton cell).value = none
  value_iff : ∀ cell value,
    (moment.world.singleton cell).value = some value ↔ (cell, value) ∈ moment.stored
  stored_distinct : (moment.stored.map (·.1)).Nodup

theorem Sound.of_fresh {world : World} (h : ∀ cell, world.singleton cell = ⟨none, false⟩) :
    Sound ⟨world, [], []⟩ where
  making_iff cell := by simp [h]
  making_distinct := .nil
  pending cell := by simp
  value_iff cell value := by simp [h]
  stored_distinct := .nil

theorem Sound.singleton_congr (h : moment.Sound) {world' : World}
    (hsame : ∀ cell, world'.singleton cell = moment.world.singleton cell) :
    Sound { moment with world := world' } where
  making_iff cell := by rw [hsame, h.making_iff]
  making_distinct := h.making_distinct
  pending cell hcell := by rw [hsame, h.pending cell hcell]
  value_iff cell value := by rw [hsame, h.value_iff]
  stored_distinct := h.stored_distinct

theorem Sound.begins (h : moment.Sound) {cell : CellId}
    (hlt : cell < moment.world.singletons.size)
    (hvalue : (moment.world.singleton cell).value = none)
    (hidle : (moment.world.singleton cell).making = false) :
    Sound { moment with world := moment.world.started cell, making := cell :: moment.making } where
  making_iff other := by
    by_cases hother : other = cell
    · rw [hother, World.making_started hlt]
      simp
    · rw [World.started, World.making_changed_of_ne hother, h.making_iff]
      simp [hother]
  making_distinct := by
    refine List.nodup_cons.2 ⟨fun hcell => ?_, h.making_distinct⟩
    rw [(h.making_iff cell).2 hcell] at hidle
    cases hidle
  pending other hmem := by
    rw [World.value_started]
    rcases List.mem_cons.1 hmem with rfl | hmem
    · exact hvalue
    · exact h.pending other hmem
  value_iff other value := by rw [World.value_started, h.value_iff]
  stored_distinct := h.stored_distinct

section

variable {world : World} {cell : CellId} {making : List CellId}
  {stored : List (CellId × Instance)}

theorem Sound.fails (h : Sound ⟨world, cell :: making, stored⟩) :
    Sound ⟨world.stopped cell, making, stored⟩ where
  making_iff other := by
    obtain ⟨hcell, -⟩ := List.nodup_cons.1 h.making_distinct
    by_cases hother : other = cell
    · rw [hother, World.making_stopped]
      simp [hcell]
    · rw [World.stopped, World.making_changed_of_ne hother, h.making_iff]
      simp [hother]
  making_distinct := (List.nodup_cons.1 h.making_distinct).2
  pending other hmem := by
    rw [World.value_stopped]
    exact h.pending other (List.mem_cons_of_mem _ hmem)
  value_iff other value := by rw [World.value_stopped, h.value_iff]
  stored_distinct := h.stored_distinct

/-- What is stored for a singleton is the first result, since nothing is stored for one whose
    delegate is running. -/
theorem Sound.finishes (h : Sound ⟨world, cell :: making, stored⟩) (value : Instance) :
    Sound ⟨(world.stopped cell).filled cell value, making, (cell, value) :: stored⟩ := by
  have hlt : cell < (world.stopped cell).singletons.size := by
    rw [World.stopped, World.size_changed]
    exact World.lt_size_of_making ((h.making_iff cell).2 List.mem_cons_self)
  have hnone := h.pending cell List.mem_cons_self
  have hfresh : ∀ value', (cell, value') ∉ stored := fun value' hmem => by
    rw [(h.value_iff cell value').2 hmem] at hnone
    cases hnone
  have hcell : cell ∉ making := (List.nodup_cons.1 h.making_distinct).1
  refine ⟨fun other => ?_, h.fails.making_distinct, fun other hmem => ?_, fun other value' => ?_,
    ?_⟩
  · rw [(World.filled_keeps cell value).making]
    exact h.fails.making_iff other
  · have hother : other ≠ cell := fun heq => hcell (heq ▸ hmem)
    rw [World.value_filled_of_ne hother]
    exact h.fails.pending other hmem
  · by_cases hother : other = cell
    · subst hother
      rw [World.value_filled hlt]
      simp [hfresh, eq_comm]
    · rw [World.value_filled_of_ne hother, h.fails.value_iff]
      simp [hother]
  · refine List.nodup_cons.2 ⟨fun hmem => ?_, h.stored_distinct⟩
    obtain ⟨⟨_, value'⟩, hstored, rfl⟩ := List.mem_map.1 hmem
    exact hfresh value' hstored

end

theorem Sound.next (h : moment.Sound) (hnext : moment.Next moment') : moment'.Sound := by
  cases hnext with
  | other hsame => exact h.singleton_congr (World.singleton_congr hsame)
  | adds =>
    refine h.singleton_congr fun cell => ?_
    simp only [World.singleton, Array.getD_eq_getD_getElem?, Array.getElem?_push]
    split
    · next hcell =>
      rw [hcell, Array.getElem?_eq_none (Nat.le_refl _)]
      rfl
    · rfl
  | begins cell hlt hvalue hidle => exact h.begins hlt hvalue hidle
  | fails => exact h.fails
  | finishes value => exact h.finishes value

theorem Sound.reaches (h : moment.Sound) (hreaches : moment.Reaches moment') : moment'.Sound := by
  induction hreaches with
  | refl => exact h
  | tail _ hnext ih => exact ih.next hnext

/-- What was stored stays stored. -/
theorem Reaches.stored_subset (h : moment.Reaches moment') : moment.stored ⊆ moment'.stored := by
  induction h with
  | refl => exact fun _ hmem => hmem
  | tail _ hnext ih =>
    cases hnext with
    | other | adds | begins | fails => exact ih
    | finishes value => exact fun _ hmem => List.mem_cons_of_mem _ (ih hmem)

theorem Reaches.trans {moment'' : Moment} (h : moment.Reaches moment')
    (h' : moment'.Reaches moment'') : moment.Reaches moment'' :=
  Relation.ReflTransGen.trans h h'

end Moment

/-! ## Orderly computations -/

namespace Run

variable {α β : Type}

/-- At every moment, the computation takes the singletons there are step by step to a moment at
    which the same delegates are running as before, however it ends. -/
def Orderly (run : Run α) : Prop :=
  ∀ moment : Moment, (run.run.run moment.world).2.singletons.size = moment.world.singletons.size ∧
    ∃ stored, moment.Reaches ⟨(run.run.run moment.world).2, moment.making, stored⟩

namespace Orderly

/-- A computation that touches no singleton. -/
theorem of_eq {run : Run α}
    (h : ∀ world, (run.run.run world).2.singletons = world.singletons) : run.Orderly :=
  fun moment => ⟨congrArg Array.size (h moment.world), moment.stored, .single (.other (h _))⟩

theorem pure (a : α) : Orderly (pure a) := of_eq fun _ => rfl

theorem throw (stop : Stop) : Orderly (throw stop : Run α) := of_eq fun _ => rfl

theorem bind {run : Run α} {f : α → Run β} (h : run.Orderly) (hf : ∀ a, (f a).Orderly) :
    (run >>= f).Orderly := by
  intro moment
  obtain ⟨hsize, stored, hreaches⟩ := h moment
  rw [ExceptT.run_bind, StateT.run_bind]
  rcases hrun : run.run.run moment.world with ⟨stop | a, between⟩
  · rw [hrun] at hsize hreaches
    exact ⟨hsize, stored, hreaches⟩
  · rw [hrun] at hsize hreaches
    obtain ⟨hsize', stored', hreaches'⟩ := hf a ⟨between, moment.making, stored⟩
    exact ⟨hsize'.trans hsize, stored', hreaches.trans hreaches'⟩

theorem ofExcept (outcome : Except Fault α) : (ofExcept outcome).Orderly := by
  cases outcome with
  | ok a => exact pure a
  | error fault => exact throw (.fault fault)

theorem lookup (lookup : Lookup α) : (Run.lookup lookup).Orderly :=
  bind (of_eq fun _ => rfl) ofExcept

theorem ending {run : Run α} (h : run.Orderly) : (Run.ending run).Orderly := h

theorem attempt {run : Run α} (h : run.Orderly) : (Run.attempt run).Orderly :=
  bind (ending h) (attempt_rest pure throw)

end Orderly

end Run

open Run (Orderly)

namespace World

variable {cell : CellId} {delegate : Run Instance}

/-- To ask for a singleton that can be begun is to begin it, to run its delegate and to fail or
    finish. -/
theorem makeOnce_reaches {moment : Moment} (h : delegate.Orderly)
    (hcell : cell < moment.world.singletons.size)
    (hvalue : (moment.world.singleton cell).value = none)
    (hidle : (moment.world.singleton cell).making = false) :
    ∃ stored,
      Moment.Reaches ⟨moment.world.started cell, cell :: moment.making, moment.stored⟩
        ⟨(delegate.run.run (moment.world.started cell)).2, cell :: moment.making, stored⟩ ∧
      moment.Reaches ⟨((World.makeOnce cell delegate).run.run moment.world).2, moment.making,
        match delegate.run.run (moment.world.started cell) with
        | (.ok value, _) => (cell, value) :: stored
        | (.error _, _) => stored⟩ := by
  have hbegins : moment.Next _ := .begins cell hcell hvalue hidle
  obtain ⟨-, stored, hreaches⟩ :=
    h ⟨moment.world.started cell, cell :: moment.making, moment.stored⟩
  refine ⟨stored, hreaches, ?_⟩
  rw [makeOnce_of_idle hvalue hidle]
  rcases hrun : delegate.run.run (moment.world.started cell) with ⟨stop | value, made⟩
  · rw [hrun] at hreaches
    exact (hreaches.head hbegins).tail .fails
  · rw [hrun] at hreaches
    have hreported : Moment.Next ⟨made, cell :: moment.making, stored⟩
        ⟨made.reported .singletonMade, cell :: moment.making, stored⟩ := .other rfl
    exact ((hreaches.head hbegins).tail hreported).tail (.finishes value)

/-- To ask for a singleton is orderly if its delegate is. -/
theorem makeOnce_orderly (cell : CellId) (h : delegate.Orderly) :
    (World.makeOnce cell delegate).Orderly := by
  intro moment
  cases hvalue : (moment.world.singleton cell).value with
  | some value =>
    rw [makeOnce_of_value hvalue]
    exact ⟨rfl, moment.stored, .refl⟩
  | none =>
    cases hidle : (moment.world.singleton cell).making with
    | true =>
      rw [makeOnce_of_making hvalue hidle]
      exact ⟨rfl, moment.stored, .refl⟩
    | false =>
      have hsize : ((World.makeOnce cell delegate).run.run moment.world).2.singletons.size =
          moment.world.singletons.size := by
        have hmade := (h ⟨moment.world.started cell, moment.making, moment.stored⟩).1
        rw [makeOnce_of_idle hvalue hidle]
        rcases hrun : delegate.run.run (moment.world.started cell) with ⟨stop | value, made⟩
        · rw [hrun] at hmade
          exact (size_changed _ _ _).trans (hmade.trans (size_changed _ _ _))
        · rw [hrun] at hmade
          refine (size_changed _ _ _).trans ?_
          exact (size_changed made cell _).trans (hmade.trans (size_changed _ _ _))
      by_cases hcell : cell < moment.world.singletons.size
      · obtain ⟨stored, -, hreaches⟩ := makeOnce_reaches h hcell hvalue hidle
        exact ⟨hsize, _, hreaches⟩
      · -- a number that stands for no singleton: neither the flag nor the instance is kept
        have hout := Nat.not_lt.1 hcell
        obtain ⟨hmade, stored, hreaches⟩ := h moment
        have hkept : (delegate.run.run moment.world).2.singletons.size ≤ cell := by rwa [hmade]
        refine ⟨hsize, stored, ?_⟩
        rw [makeOnce_of_idle hvalue hidle, started, changed_of_le hout]
        rcases hrun : delegate.run.run moment.world with ⟨stop | value, made⟩
        · rw [hrun] at hkept hreaches
          show moment.Reaches ⟨made.changed cell _, _, _⟩
          rw [changed_of_le hkept]
          exact hreaches
        · rw [hrun] at hkept hreaches
          show moment.Reaches ⟨((made.changed cell _).reported .singletonMade).changed cell _, _, _⟩
          have hreported : (made.reported .singletonMade).singletons.size ≤ cell := hkept
          rw [changed_of_le hkept, changed_of_le hreported]
          exact hreaches.tail (.other rfl)

end World

variable {ask : Key → Run Instance} {find : Key → Lookup (Option Provider)}

theorem Recipe.run_orderly {α : Type} (hask : ∀ key, (ask key).Orderly) (recipe : Recipe α) :
    (recipe.run ask find).Orderly := by
  induction recipe with
  | done value => exact .pure value
  | fail fault => exact .throw (.fault fault)
  | abort label => exact .throw (.abort label)
  | ask key next ih => exact .bind (.attempt (hask key)) ih
  | search key next ih => exact .bind (.lookup _) fun answer => ih _
  | newLazy next ih => exact .bind (.of_eq fun _ => rfl) ih
  | serial next ih => exact .bind (.of_eq fun _ => rfl) ih
  | note line next ih => exact .bind (.lookup _) fun _ => ih

/-- To look whether an injector is alive touches no singleton. -/
theorem World.self_singletons (id : InjectorId) (world : World) :
    ((do
      match (← MonadState.get).injector? id with
      | some _ => return .injector id
      | none => Run.fail (.notProvided .injector) : Run Instance).run.run world).2.singletons =
        world.singletons := by
  rw [Run.get_bind]
  cases world.injector? id with
  | some injector => rfl
  | none => rfl

theorem Provider.get_orderly (hask : ∀ key, (ask key).Orderly) (provider : Provider) :
    (provider.get ask find).Orderly := by
  induction provider with
  | ready value => exact .pure value
  | self id => exact .of_eq (World.self_singletons id)
  | factory calls recipe =>
    exact .bind (.of_eq fun _ => rfl) fun call => Recipe.run_orderly hask (recipe call)
  | singleton cell delegate ih => exact World.makeOnce_orderly cell ih

/-- Requests are orderly, however deep they are nested and whatever they end with. -/
theorem Resolver.getInstance_orderly (depth : Nat) (resolver : Resolver) (key : Key) :
    (resolver.getInstance depth key).Orderly := by
  induction depth generalizing key with
  | zero => exact .throw .tooDeep
  | succ depth ih => exact .bind (.lookup _) fun provider => provider.get_orderly ih

theorem Resolver.getFrom_orderly (depth : Nat) (resolver : Resolver) (provider : Provider) :
    (resolver.getFrom depth provider).Orderly :=
  provider.get_orderly (resolver.getInstance_orderly depth)

theorem Registry.carryOut_orderly (depth : Nat) (registry : Registry) (entry : Entry) :
    (registry.carryOut depth entry).Orderly := by
  cases entry with
  | value key template =>
    refine .bind ?_ fun value => .lookup _
    cases template with
    | object type label => exact .bind (.of_eq fun _ => rfl) fun serial => .pure _
    | text | integer | flag => exact .pure _
  | provider key provider => exact .lookup _
  | resolve key => exact .bind (Resolver.getInstance_orderly depth _ key) fun _ => .pure registry

theorem Registry.configure_orderly (depth : Nat) (component : List Entry) (registry : Registry) :
    (registry.configure depth component).Orderly := by
  induction component generalizing registry with
  | nil => exact .pure registry
  | cons entry component ih =>
    rw [configure, List.foldlM_cons]
    exact .bind (carryOut_orderly depth registry entry) ih

/-- To make an injector is orderly, whatever its component asks for. -/
theorem Injector.create_orderly (depth : Nat) (registry : Registry) (parent : Option InjectorId)
    (resolverInterceptors : List ResolverInterceptor)
    (providerInterceptors : List ProviderInterceptor) (component : List Entry) :
    (create depth registry parent resolverInterceptors providerInterceptors component).Orderly := by
  refine .bind (.of_eq fun _ => rfl) fun id => .bind (.ending ?_) fun outcome => ?_
  · refine .bind (.lookup _) fun registered => ?_
    refine .bind (Registry.configure_orderly depth component registered) fun configured => ?_
    refine .bind (.lookup _) fun inner => .bind (.lookup _) fun _ => ?_
    exact .bind (.of_eq fun _ => rfl) fun _ => .pure id
  · cases outcome with
    | ok id => exact .pure id
    | error stop => exact .bind (.of_eq fun _ => rfl) fun _ => .throw stop

/-! ## Requests for singletons at any moment -/

/-- What `get`, a request for a singleton, does at a moment, where `make` runs its delegate. -/
structure Moment.Serves (moment : Moment) (cell : CellId) (get make : Run Instance) : Prop where
  /-- At most one result is stored for a singleton, and the instances are the results stored. -/
  stored_distinct : (moment.stored.map (·.1)).Nodup
  value_iff : ∀ other value,
    (moment.world.singleton other).value = some value ↔ (other, value) ∈ moment.stored
  /-- The flags are set for the singletons whose delegates are running. -/
  making_iff : ∀ other,
    (moment.world.singleton other).making = true ↔ other ∈ moment.making
  /-- What was stored is given from then on, and the world stays as it is. -/
  of_stored : ∀ value, (cell, value) ∈ moment.stored → ∀ later, moment.Reaches later →
    get.run.run later.world = (.ok value, later.world)
  /-- While the delegate is running, the request is refused, and the world stays as it is. -/
  of_making : cell ∈ moment.making →
    get.run.run moment.world = (.error (.fault .reentrantSingleton), moment.world)
  /-- Otherwise the delegate is run, at whose end nothing is stored for the singleton.  Its value is
      stored and given; if it stops, so does the request, and still nothing is stored. -/
  of_idle : cell < moment.world.singletons.size →
    (∀ value, (cell, value) ∉ moment.stored) → cell ∉ moment.making →
    ∃ stored,
      Moment.Reaches ⟨moment.world.started cell, cell :: moment.making, moment.stored⟩
        ⟨(make.run.run (moment.world.started cell)).2, cell :: moment.making, stored⟩ ∧
      (∀ value, (cell, value) ∉ stored) ∧
      match make.run.run (moment.world.started cell) with
      | (.ok value, made) => ∃ after, get.run.run moment.world = (.ok value, after) ∧
        after = ((made.stopped cell).reported .singletonMade).filled cell value ∧
        moment.Reaches ⟨after, moment.making, (cell, value) :: stored⟩
      | (.error stop, made) => ∃ after, get.run.run moment.world = (.error stop, after) ∧
        after = made.stopped cell ∧ moment.Reaches ⟨after, moment.making, stored⟩
  /-- When a request that no delegate made has ended, no flag is set. -/
  idle_after : moment.making = [] →
    ∀ other, ((get.run.run moment.world).2.singleton other).making = false

namespace Moment

variable {moment : Moment} {cell : CellId}

theorem Sound.value_eq_none (h : moment.Sound)
    (hnone : ∀ value, (cell, value) ∉ moment.stored) :
    (moment.world.singleton cell).value = none := by
  cases hvalue : (moment.world.singleton cell).value with
  | none => rfl
  | some value => exact (hnone value ((h.value_iff cell value).1 hvalue)).elim

theorem Sound.making_eq_false (h : moment.Sound) (hidle : cell ∉ moment.making) :
    (moment.world.singleton cell).making = false :=
  Bool.eq_false_iff.2 fun hmaking => hidle ((h.making_iff cell).1 hmaking)

theorem Sound.serves (h : moment.Sound) (cell : CellId) (depth : Nat) (resolver : Resolver)
    (delegate : Provider) :
    moment.Serves cell (resolver.getFrom depth (.singleton cell delegate))
      (resolver.getFrom depth delegate) where
  stored_distinct := h.stored_distinct
  value_iff := h.value_iff
  making_iff := h.making_iff
  of_stored value hstored later hlater :=
    World.makeOnce_of_value
      (((h.reaches hlater).value_iff cell value).2 (hlater.stored_subset hstored)) _
  of_making hmaking :=
    World.makeOnce_of_making (h.pending cell hmaking) ((h.making_iff cell).2 hmaking) _
  of_idle hcell hnone hidle := by
    have hvalue := h.value_eq_none hnone
    have hflag := h.making_eq_false hidle
    have horderly := resolver.getFrom_orderly depth delegate
    obtain ⟨stored, hmade, hafter⟩ := World.makeOnce_reaches horderly hcell hvalue hflag
    have hsound := (h.begins hcell hvalue hflag).reaches hmade
    have hpending := hsound.pending cell List.mem_cons_self
    have hrun := World.makeOnce_of_idle hvalue hflag (resolver.getFrom depth delegate)
    rw [hrun] at hafter
    refine ⟨stored, hmade, fun value hstored => ?_, ?_⟩
    · rw [(hsound.value_iff cell value).2 hstored] at hpending
      cases hpending
    · rcases hdelegate : (resolver.getFrom depth delegate).run.run (moment.world.started cell) with
        ⟨stop | value, made⟩
      · rw [hdelegate] at hrun hafter
        exact ⟨_, hrun, rfl, hafter⟩
      · rw [hdelegate] at hrun hafter
        exact ⟨_, hrun, rfl, hafter⟩
  idle_after hnil other := by
    obtain ⟨-, stored, hafter⟩ :=
      resolver.getFrom_orderly depth (.singleton cell delegate) moment
    have hsound := h.reaches hafter
    rw [hnil] at hsound
    exact hsound.making_eq_false List.not_mem_nil

/-- In a world in which no singleton was made or is being made, requests begin, through whatever
    resolvers, injectors and singletons are added, and all of them end somehow.  At every moment,
    also in the middle of a request, each of these leads to a moment at which the same delegates are
    running, and each singleton answers as it should. -/
theorem Reaches.singletons_serve {world : World}
    (hfresh : ∀ cell, world.singleton cell = ⟨none, false⟩)
    (h : Reaches ⟨world, [], []⟩ moment) (depth : Nat) :
    moment.Reaches
      ⟨(World.newSingleton.run.run moment.world).2, moment.making, moment.stored⟩ ∧
    (∀ registry parent resolverInterceptors providerInterceptors component, ∃ stored,
      moment.Reaches
        ⟨((Injector.create depth registry parent resolverInterceptors providerInterceptors
          component).run.run moment.world).2, moment.making, stored⟩) ∧
    (∀ (resolver : Resolver) key, ∃ stored, moment.Reaches
      ⟨((resolver.getInstance depth key).run.run moment.world).2, moment.making, stored⟩) ∧
    ∀ (resolver : Resolver) cell delegate,
      moment.Serves cell (resolver.getFrom depth (.singleton cell delegate))
        (resolver.getFrom depth delegate) := by
  refine ⟨.single .adds, ?_, ?_, ?_⟩
  · intro registry parent resolverInterceptors providerInterceptors component
    exact (Injector.create_orderly depth registry parent resolverInterceptors providerInterceptors
      component moment).2
  · exact fun resolver key => (resolver.getInstance_orderly depth key moment).2
  · exact fun resolver cell delegate =>
      ((Sound.of_fresh hfresh).reaches h).serves cell depth resolver delegate

end Moment

/-! ## A singleton that asks for itself -/

namespace Mirror

def key : Key := .plain "Mirror"

/-- A factory that asks for the instance it is about to make, and is content with the answer. -/
def recipe : Recipe Instance :=
  .ask key fun
    | .ok value => .done (.object "Mirror" "mirror" 0 [.made value])
    | .error fault => .done (.object "Mirror" "mirror" 0 [.failed fault])

def resolver : Resolver :=
  .registry (SlotTable.empty.insertNew key (.singleton 0 (.factory 0 fun _ => recipe))) none

def mirror : Instance := .object "Mirror" "mirror" 0 [.failed .reentrantSingleton]

def start : World := { World.empty with singletons := #[⟨none, false⟩], counters := #[0] }

theorem fresh (cell : CellId) : start.singleton cell = ⟨none, false⟩ :=
  match cell with
  | 0 => rfl
  | _ + 1 => rfl

/-- The factory is refused its own instance, the instance it makes all the same is stored, and every
    later request gets this one. -/
theorem mirror_stays : ∃ after stored,
    (resolver.getFrom 2 (.singleton 0 (.factory 0 fun _ => recipe))).run.run start =
      (.ok mirror, after) ∧
    ∀ later, Moment.Reaches ⟨after, [], stored⟩ later → ∀ depth resolver delegate,
      (Resolver.getFrom depth resolver (.singleton 0 delegate)).run.run later.world =
        (.ok mirror, later.world) := by
  have hserves := (Moment.Reaches.singletons_serve fresh .refl 2).2.2.2 resolver 0
    (.factory 0 fun _ => recipe)
  obtain ⟨stored, -, -, hget⟩ :=
    hserves.of_idle (by decide) (fun _ => List.not_mem_nil) List.not_mem_nil
  have hmake : (((resolver.getFrom 2 (.factory 0 fun _ => recipe)).run.run (start.started 0)).1) =
      .ok mirror := by rfl
  split at hget
  · next value made hrun =>
    rw [hrun] at hmake
    obtain rfl := Except.ok.inj hmake
    obtain ⟨after, hget, -, hafter⟩ := hget
    refine ⟨after, (0, mirror) :: stored, hget, fun later hlater depth resolver' delegate => ?_⟩
    have hserves' := (Moment.Reaches.singletons_serve fresh hafter depth).2.2.2 resolver' 0 delegate
    exact hserves'.of_stored mirror List.mem_cons_self later hlater
  · next stop made hrun =>
    rw [hrun] at hmake
    cases hmake

end Mirror

end Injection
