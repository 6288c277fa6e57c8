/-
  What is still held, and what is gone.

  Injectors, singletons' cells and lazy handles' cells live as long as
  something that lives holds them: a name of the program's, another one of
  them, or a value stored in one of them.  What nothing holds any more is gone,
  and with it what it held itself.  Things that hold each other in a circle stay
  alive.  Deferred handles hold no injector, nor does an injector's provider of
  itself.

  * `Instance.mark`, `Provider.mark`, `Resolver.mark` and `Injector.mark` mark
    what these hold;
  * `World.release` lets go of what is not marked;
  * `World.collect` releases again and again, until nothing changes.
-/
import Injection.Container.World

namespace Injection

/-- What was found to be held: for each number of an injector, of a cell and of an object, whether
    it was.  An object can be a part of many others, so what it holds is looked for only once. -/
structure Marks where
  injectors : Array Bool
  singletons : Array Bool
  lazies : Array Bool
  objects : Array Bool

namespace Marks

def injector (id : InjectorId) (marks : Marks) : Marks :=
  { marks with injectors := marks.injectors.setIfInBounds id true }

def singleton (cell : CellId) (marks : Marks) : Marks :=
  { marks with singletons := marks.singletons.setIfInBounds cell true }

def lazy (cell : LazyId) (marks : Marks) : Marks :=
  { marks with lazies := marks.lazies.setIfInBounds cell true }

def object (serial : Nat) (marks : Marks) : Marks :=
  { marks with objects := marks.objects.setIfInBounds serial true }

end Marks

/-! ## What values hold -/

mutual

def Instance.mark : Instance → Marks → Marks
  | .object _ _ serial parts, marks =>
    if marks.objects.getD serial false then marks else Part.markAll parts (marks.object serial)
  | .injector id, marks => marks.injector id
  | .text _, marks | .integer _, marks | .flag _, marks => marks

def Part.mark : Part → Marks → Marks
  | .made value, marks => value.mark marks
  | .lazy _ cell, marks => marks.lazy cell
  | .handle _, marks | .found _, marks | .failed _, marks => marks

def Part.markAll : List Part → Marks → Marks
  | [], marks => marks
  | part :: parts, marks => Part.markAll parts (part.mark marks)

end

def Provider.mark : Provider → Marks → Marks
  | .ready value, marks => value.mark marks
  | .self _, marks | .factory _ _, marks => marks
  | .singleton cell delegate, marks => delegate.mark (marks.singleton cell)

def Bindings.mark (bindings : Bindings) (marks : Marks) : Marks :=
  bindings.values.foldl (fun marks provider => provider.mark marks) marks

def ProviderInterceptor.mark (interceptor : ProviderInterceptor) (marks : Marks) : Marks :=
  match interceptor.rule with
  | .substitute providers => Bindings.mark providers marks
  | .replace _ provider => provider.mark marks
  | _ => marks

def ResolverInterceptor.mark (interceptor : ResolverInterceptor) (marks : Marks) : Marks :=
  match interceptor.wrapping with
  | .override overrides => Bindings.mark overrides marks
  | _ => marks

def Resolver.mark : Resolver → Marks → Marks
  | .registry bindings none, marks => Bindings.mark bindings marks
  | .registry bindings (some parent), marks => parent.mark (Bindings.mark bindings marks)
  | .overriding overrides inner, marks => inner.mark (Bindings.mark overrides marks)
  | .recording _ inner, marks => inner.mark marks
  | .injector id _ _, marks => marks.injector id

/-- Marks what an injector holds.  Its resolvers hold nothing besides: they consist of its own
    bindings, of what its resolver interceptors made of them, and of a resolver of its parent. -/
def Injector.mark (injector : Injector) (marks : Marks) : Marks :=
  let marks := Bindings.mark injector.registry.bindings marks
  let marks := injector.resolverInterceptors.foldl (fun marks first => first.mark marks) marks
  let marks := injector.providerInterceptors.foldl (fun marks first => first.mark marks) marks
  match injector.parent with
  | some parent => marks.injector parent
  | none => marks

/-! ## Release -/

namespace World

/-- The marks of a world in which nothing was found to be held yet. -/
def unmarked (world : World) : Marks :=
  ⟨.replicate world.injectors.size false, .replicate world.singletons.size false,
    .replicate world.lazies.size false, .replicate (world.serial + 1) false⟩

/-- Marks what an instance that may be there holds. -/
def markStored (value : Option Instance) (marks : Marks) : Marks :=
  match value with
  | some value => value.mark marks
  | none => marks

/-- Marks what the world's own contents hold. -/
def mark (world : World) (marks : Marks) : Marks :=
  let marks := world.injectors.foldl (fun marks slot =>
    match slot with
    | .live injector => injector.mark marks
    | .pending | .gone => marks) marks
  let marks := world.singletons.foldl (fun marks cell => markStored cell.value marks) marks
  world.lazies.foldl (fun marks value => markStored value marks) marks

/-- Lets go of everything that is not marked. -/
def release (marks : Marks) (world : World) : World :=
  { world with
    injectors := world.injectors.mapIdx fun id slot =>
      if marks.injectors.getD id false then slot else .gone
    singletons := world.singletons.mapIdx fun cell state =>
      if marks.singletons.getD cell false then state else ⟨none, false⟩
    lazies := world.lazies.mapIdx fun cell value =>
      if marks.lazies.getD cell false then value else none }

/-- The number of injectors and of instances kept in cells. -/
def population (world : World) : Nat :=
  (world.injectors.toList.filter fun slot => slot matches .live _).length
    + (world.singletons.toList.filter fun cell => cell.value.isSome).length
    + (world.lazies.toList.filter Option.isSome).length

/-- Releases what neither `roots` nor the world's contents hold, again and again, at most `rounds`
    times: a release can leave other things unheld. -/
def settle (roots : Marks → Marks) : Nat → World → World
  | 0, world => world
  | rounds + 1, world =>
    let released := world.release (world.mark (roots world.unmarked))
    if released.population = world.population then released else settle roots rounds released

/-- The world after everything is released that nothing holds any more, given what marks the things
    held from outside. -/
def collect (roots : Marks → Marks) (world : World) : World :=
  settle roots (world.population + 1) world

end World

end Injection
