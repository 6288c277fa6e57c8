/-
  Computations that agree in worlds which differ in their injectors.

  What an injector gives depends on its resolver and on the world, and the world
  is asked for injectors only to see whether they are alive.

  * `World.Alike`: two worlds with certain injectors, which share all else;
  * `Run.Agrees`: two computations that end alike when they begin in alike
    worlds, with one rule for each way to put computations together;
  * `Provider.get_agrees`: a provider makes the same of answers that agree;
  * `Resolver.getInstance_agrees`: resolvers that give the same providers make
    the same instances.
-/
import Injection.Container.Resolution
import Injection.Proofs.Effects

namespace Injection

/-! ## Alike worlds -/

/-- Two worlds have the injectors of `one` and those of `other`, and share all else: the instances
    of singletons, the calls of factories, what was written down. -/
structure World.Alike (one other a b : World) : Prop where
  injectors : a.injectors = one.injectors
  injectors' : b.injectors = other.injectors
  singletons : a.singletons = b.singletons
  lazies : a.lazies = b.lazies
  counters : a.counters = b.counters
  serial : a.serial = b.serial
  journal : a.journal = b.journal

namespace World.Alike

variable {one other a b : World}

theorem refl (world : World) : World.Alike world world world world :=
  ⟨rfl, rfl, rfl, rfl, rfl, rfl, rfl⟩

/-- Worlds that are alike and have the same injectors are the same. -/
theorem eq (h : World.Alike one one a b) : a = b := by
  obtain ⟨hinjectors, hinjectors', hsingletons, hlazies, hcounters, hserial, hjournal⟩ := h
  cases a
  cases b
  simp_all

theorem injector?_eq (h : World.Alike one other a b) (id : InjectorId) :
    a.injector? id = one.injector? id := by
  rw [World.injector?, World.injector?, h.injectors]

theorem injector?_eq' (h : World.Alike one other a b) (id : InjectorId) :
    b.injector? id = other.injector? id := by
  rw [World.injector?, World.injector?, h.injectors']

theorem singleton_eq (h : World.Alike one other a b) (cell : CellId) :
    a.singleton cell = b.singleton cell := by
  rw [World.singleton, World.singleton, h.singletons]

/-- A change that reads and writes none of the injectors leaves alike worlds alike. -/
theorem change (h : World.Alike one other a b)
    (singletons : Array SingletonCell → Array SingletonCell)
    (lazies : Array (Option Instance) → Array (Option Instance))
    (counters : Array Nat → Array Nat) (serial : Nat → Nat) (journal : Journal → Journal) :
    World.Alike one other
      ⟨a.injectors, singletons a.singletons, lazies a.lazies, counters a.counters,
        serial a.serial, journal a.journal⟩
      ⟨b.injectors, singletons b.singletons, lazies b.lazies, counters b.counters,
        serial b.serial, journal b.journal⟩ where
  injectors := h.injectors
  injectors' := h.injectors'
  singletons := congrArg singletons h.singletons
  lazies := congrArg lazies h.lazies
  counters := congrArg counters h.counters
  serial := congrArg serial h.serial
  journal := congrArg journal h.journal

end World.Alike

/-! ## Agreement -/

namespace Run

variable {α β : Type} {one other : World}

/-- Begun in alike worlds, two computations end with the same value or stop for the same reason, and
    leave alike worlds. -/
def Agrees (one other : World) (run run' : Run α) : Prop :=
  ∀ a b, World.Alike one other a b →
    (run.run.run a).1 = (run'.run.run b).1 ∧
      World.Alike one other (run.run.run a).2 (run'.run.run b).2

namespace Agrees

theorem pure (x : α) : Agrees one other (pure x) (pure x) := fun _ _ h => ⟨rfl, h⟩

theorem throw (stop : Stop) : Agrees one other (throw stop : Run α) (throw stop) :=
  fun _ _ h => ⟨rfl, h⟩

theorem get {f f' : World → Run β}
    (hf : ∀ a b, World.Alike one other a b → Agrees one other (f a) (f' b)) :
    Agrees one other (MonadState.get >>= f) (MonadState.get >>= f') :=
  fun a b h => hf a b h a b h

theorem bind {run run' : Run α} {f f' : α → Run β} (h : Agrees one other run run')
    (hf : ∀ x, Agrees one other (f x) (f' x)) :
    Agrees one other (run >>= f) (run' >>= f') := by
  intro a b hab
  obtain ⟨hvalue, hworld⟩ := h a b hab
  rcases hrun : run.run.run a with ⟨outcome, a'⟩
  rcases hrun' : run'.run.run b with ⟨outcome', b'⟩
  rw [hrun, hrun'] at hvalue hworld
  obtain rfl : outcome = outcome' := hvalue
  rw [ExceptT.run_bind, StateT.run_bind, hrun, ExceptT.run_bind, StateT.run_bind, hrun']
  cases outcome with
  | ok x => exact hf x a' b' hworld
  | error stop => exact ⟨rfl, hworld⟩

theorem ofExcept (outcome : Except Fault α) :
    Agrees one other (ofExcept outcome) (ofExcept outcome) := by
  cases outcome with
  | ok x => exact pure x
  | error fault => exact throw (.fault fault)

theorem ofEnding (outcome : Except Stop α) :
    Agrees one other (ofEnding outcome) (ofEnding outcome) := by
  cases outcome with
  | ok x => exact pure x
  | error stop => exact throw stop

/-- Lookups read and write the journal only. -/
theorem lookup (lookup : Lookup α) :
    Agrees one other (Run.lookup lookup) (Run.lookup lookup) := by
  refine bind (fun a b h => ⟨?_, ?_⟩) ofExcept
  · exact congrArg (fun journal => Except.ok (lookup.run.run journal).1) h.journal
  · exact h.change id id id id fun journal => (lookup.run.run journal).2

theorem ending {run run' : Run α} (h : Agrees one other run run') :
    Agrees one other (Run.ending run) (Run.ending run') :=
  fun a b hab => ⟨congrArg Except.ok (h a b hab).1, (h a b hab).2⟩

theorem attempt {run run' : Run α} (h : Agrees one other run run') :
    Agrees one other (Run.attempt run) (Run.attempt run') :=
  bind (ending h) (attempt_rest (P := fun rest => Agrees one other rest rest) pure throw)

/-- Computations that agree for each of a list of things agree for the whole list. -/
theorem mapM {run run' : α → Run β} (h : ∀ x, Agrees one other (run x) (run' x)) (xs : List α) :
    Agrees one other (xs.mapM run) (xs.mapM run') := by
  induction xs with
  | nil => exact pure []
  | cons x xs ih =>
    rw [List.mapM_cons, List.mapM_cons]
    exact bind (h x) fun y => bind ih fun ys => pure (y :: ys)

end Agrees

end Run

/-! ## Requests for instances -/

open Run (Agrees)

variable {one other : World}

namespace World

theorem modifySingleton_agrees (cell : CellId) (f : SingletonCell → SingletonCell) :
    Agrees one other (modifySingleton cell f) (modifySingleton cell f) :=
  fun _ _ h => ⟨rfl, h.change (·.modify cell f) id id id id⟩

theorem newLazy_agrees : Agrees one other newLazy newLazy := fun _ _ h =>
  ⟨congrArg (fun lazies : Array (Option Instance) => Except.ok lazies.size) h.lazies,
    h.change id (·.push none) id id id⟩

theorem nextSerial_agrees : Agrees one other nextSerial nextSerial := fun _ _ h =>
  ⟨congrArg (fun serial => Except.ok (serial + 1)) h.serial, h.change id id id (· + 1) id⟩

theorem countCall_agrees (calls : CounterId) :
    Agrees one other (countCall calls) (countCall calls) := fun _ _ h =>
  ⟨congrArg (fun counters : Array Nat => Except.ok (counters.getD calls 0 + 1)) h.counters,
    h.change id id (fun counters => counters.setIfInBounds calls (counters.getD calls 0 + 1)) id
      id⟩

/-- A singleton is in the same state in alike worlds, so its delegate is run in both or in
    neither. -/
theorem makeOnce_agrees (cell : CellId) {delegate delegate' : Run Instance}
    (hdelegate : Agrees one other delegate delegate') :
    Agrees one other (makeOnce cell delegate) (makeOnce cell delegate') := by
  refine .get fun a b h => ?_
  simp only [h.singleton_eq cell]
  cases (b.singleton cell).value with
  | some value => exact .pure value
  | none =>
    cases (b.singleton cell).making with
    | true => exact .throw (.fault .reentrantSingleton)
    | false =>
      refine .bind (modifySingleton_agrees cell _) fun _ => ?_
      refine .bind (.ending hdelegate) fun outcome => ?_
      refine .bind (modifySingleton_agrees cell _) fun _ => ?_
      refine .bind (.ofEnding outcome) fun value => ?_
      refine .bind (.lookup _) fun _ => ?_
      exact .bind (modifySingleton_agrees cell _) fun _ => .pure value

end World

section

variable {ask ask' : Key → Run Instance} {find : Key → Lookup (Option Provider)}

/-- A recipe gets the same answers, so it goes the same way. -/
theorem Recipe.run_agrees {α : Type} (hask : ∀ key, Agrees one other (ask key) (ask' key))
    (recipe : Recipe α) : Agrees one other (recipe.run ask find) (recipe.run ask' find) := by
  induction recipe with
  | done value => exact .pure value
  | fail fault => exact .throw (.fault fault)
  | abort label => exact .throw (.abort label)
  | ask key next ih => exact .bind (.attempt (hask key)) ih
  | search key next ih => exact .bind (.lookup _) fun answer => ih _
  | newLazy next ih => exact .bind World.newLazy_agrees ih
  | serial next ih => exact .bind World.nextSerial_agrees ih
  | note line next ih => exact .bind (.lookup _) fun _ => ih

theorem Provider.get_agrees
    (halive : ∀ id, (one.injector? id).isSome = (other.injector? id).isSome)
    (hask : ∀ key, Agrees one other (ask key) (ask' key)) (provider : Provider) :
    Agrees one other (provider.get ask find) (provider.get ask' find) := by
  induction provider with
  | ready value => exact .pure value
  | self id =>
    refine .get fun a b h => ?_
    simp only [h.injector?_eq, h.injector?_eq']
    have hsame := halive id
    cases hone : one.injector? id with
    | none =>
      have hother : other.injector? id = none := by simpa [hone] using hsame
      rw [hother]
      exact .throw (.fault (.notProvided .injector))
    | some =>
      rw [hone] at hsame
      obtain ⟨_, hother⟩ := Option.isSome_iff_exists.1 hsame.symm
      rw [hother]
      exact .pure (Instance.injector id)
  | factory calls recipe =>
    exact .bind (World.countCall_agrees calls) fun call => Recipe.run_agrees hask (recipe call)
  | singleton cell delegate ih => exact World.makeOnce_agrees cell ih

end

/-- Resolvers that find and give the same providers make the same instances, in worlds that differ
    in their injectors only. -/
theorem Resolver.getInstance_agrees
    (halive : ∀ id, (one.injector? id).isSome = (other.injector? id).isSome)
    {resolver resolver' : Resolver} (hfind : resolver.find = resolver'.find)
    (hget : resolver.getProvider = resolver'.getProvider) (depth : Nat) (key : Key) :
    Agrees one other (resolver.getInstance depth key) (resolver'.getInstance depth key) := by
  induction depth generalizing key with
  | zero => exact .throw .tooDeep
  | succ depth ih =>
    rw [getInstance, getInstance, hget, hfind]
    exact .bind (.lookup _) fun provider => provider.get_agrees halive ih

end Injection
