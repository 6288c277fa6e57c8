/-
  What a release lets go of, and what it leaves.

  A release goes by marks, and marking only adds to them.  So what the names of
  a program mark stays, however much else is let go of.

  * `World.injector?_release`, `World.lazies_release`: what is left of an
    injector and of the cell of a lazy handle;
  * `World.mark_extends`: the contents of the world only add marks;
  * `World.collect_induction`: a collection is a number of releases;
  * `Session.State.mark_handle`: the names of a script mark the cells of its
    lazy handles.
-/
import Injection.Session.State

namespace Injection

variable {id : InjectorId} {cell : LazyId} {marks : Marks} {world : World}

/-! ## One release -/

namespace World

theorem injector?_release (marks : Marks) (world : World) (id : InjectorId) :
    (world.release marks).injector? id =
      if marks.injectors.getD id false then world.injector? id else none := by
  have hslot : (world.release marks).injectors[id]? = world.injectors[id]?.map fun slot =>
      if marks.injectors.getD id false then slot else .gone := Array.getElem?_mapIdx
  rw [injector?, hslot, injector?]
  cases marks.injectors.getD id false with
  | true => simp
  | false => cases world.injectors[id]? <;> rfl

theorem lazies_release (hcell : marks.lazies.getD cell false = true) (world : World) :
    (world.release marks).lazies[cell]? = world.lazies[cell]? := by
  have hvalue : (world.release marks).lazies[cell]? = world.lazies[cell]?.map fun value =>
      if marks.lazies.getD cell false then value else none := Array.getElem?_mapIdx
  rw [hvalue, hcell]
  simp

end World

/-! ## Marking -/

/-- Marks with some cells of lazy handles added, and none taken away. -/
structure Marks.Extends (before after : Marks) : Prop where
  size_eq : after.lazies.size = before.lazies.size
  keeps : ∀ cell, before.lazies.getD cell false = true → after.lazies.getD cell false = true

namespace Marks.Extends

theorem refl (marks : Marks) : marks.Extends marks := ⟨rfl, fun _ h => h⟩

theorem trans {before between after : Marks} (h : before.Extends between)
    (h' : between.Extends after) : before.Extends after :=
  ⟨h'.size_eq.trans h.size_eq, fun cell hcell => h'.keeps cell (h.keeps cell hcell)⟩

theorem lazy (marks : Marks) (cell : LazyId) : marks.Extends (marks.lazy cell) where
  size_eq := Array.size_setIfInBounds
  keeps other hother := by
    simp only [Marks.lazy, Array.getD_eq_getD_getElem?, Array.getElem?_setIfInBounds] at hother ⊢
    split
    · next hsame =>
      subst hsame
      split
      · rfl
      · next hout => simp [hout] at hother
    · exact hother

theorem injector (marks : Marks) (id : InjectorId) : marks.Extends (marks.injector id) :=
  ⟨rfl, fun _ h => h⟩

theorem singleton (marks : Marks) (cell : CellId) : marks.Extends (marks.singleton cell) :=
  ⟨rfl, fun _ h => h⟩

theorem object (marks : Marks) (serial : Nat) : marks.Extends (marks.object serial) :=
  ⟨rfl, fun _ h => h⟩

variable {α : Type} {f : Marks → α → Marks}

theorem foldl (h : ∀ (marks : Marks) (a : α), marks.Extends (f marks a)) (as : List α)
    (marks : Marks) : marks.Extends (as.foldl f marks) := by
  induction as generalizing marks with
  | nil => exact refl marks
  | cons a as ih => exact (h marks a).trans (ih (f marks a))

theorem foldl_array (h : ∀ (marks : Marks) (a : α), marks.Extends (f marks a)) (as : Array α)
    (marks : Marks) : marks.Extends (as.foldl f marks) := by
  rw [← Array.foldl_toList]
  exact foldl h as.toList marks

/-- What one step marks stays marked. -/
theorem foldl_mem (h : ∀ (marks : Marks) (a : α), marks.Extends (f marks a)) {as : List α} {a : α}
    (hmem : a ∈ as) (hmark : ∀ marks : Marks, cell < marks.lazies.size →
      (f marks a).lazies.getD cell false = true)
    (hlt : cell < marks.lazies.size) : (as.foldl f marks).lazies.getD cell false = true := by
  obtain ⟨before, after, rfl⟩ := List.append_of_mem hmem
  rw [List.foldl_append, List.foldl_cons]
  refine (foldl h after _).keeps cell (hmark _ ?_)
  rwa [(foldl h before marks).size_eq]

end Marks.Extends

theorem Marks.lazy_getD {marks : Marks} (hlt : cell < marks.lazies.size) :
    (marks.lazy cell).lazies.getD cell false = true := by
  simp [Marks.lazy, hlt]

open Marks (Extends)

mutual

theorem Instance.mark_extends : ∀ (value : Instance) (marks : Marks),
    marks.Extends (value.mark marks)
  | .object _ _ serial parts, marks => by
    rw [Instance.mark]
    split
    · exact .refl marks
    · exact (Extends.object marks serial).trans (Part.markAll_extends parts _)
  | .injector id, marks => .injector marks id
  | .text _, marks | .integer _, marks | .flag _, marks => .refl marks

theorem Part.mark_extends : ∀ (part : Part) (marks : Marks), marks.Extends (part.mark marks)
  | .made value, marks => value.mark_extends marks
  | .lazy _ cell, marks => .lazy marks cell
  | .handle _, marks | .found _, marks | .failed _, marks => .refl marks

theorem Part.markAll_extends : ∀ (parts : List Part) (marks : Marks),
    marks.Extends (Part.markAll parts marks)
  | [], marks => .refl marks
  | part :: parts, marks =>
    (part.mark_extends marks).trans (Part.markAll_extends parts (part.mark marks))

end

theorem Provider.mark_extends (provider : Provider) (marks : Marks) :
    marks.Extends (provider.mark marks) := by
  induction provider generalizing marks with
  | ready value => exact value.mark_extends marks
  | self id => exact .refl marks
  | factory calls recipe => exact .refl marks
  | singleton cell delegate ih => exact (Extends.singleton marks cell).trans (ih _)

theorem Bindings.mark_extends (bindings : Bindings) (marks : Marks) :
    marks.Extends (bindings.mark marks) :=
  .foldl (fun marks (provider : Provider) => provider.mark_extends marks) bindings.values marks

theorem ProviderInterceptor.mark_extends (interceptor : ProviderInterceptor) (marks : Marks) :
    marks.Extends (interceptor.mark marks) := by
  unfold mark
  split
  · exact Bindings.mark_extends _ marks
  · exact Provider.mark_extends _ marks
  · exact .refl marks

theorem ResolverInterceptor.mark_extends (interceptor : ResolverInterceptor) (marks : Marks) :
    marks.Extends (interceptor.mark marks) := by
  unfold mark
  split
  · exact Bindings.mark_extends _ marks
  · exact .refl marks

theorem Resolver.mark_extends : ∀ (resolver : Resolver) (marks : Marks),
    marks.Extends (resolver.mark marks)
  | .registry bindings none, marks => bindings.mark_extends marks
  | .registry bindings (some parent), marks =>
    (bindings.mark_extends marks).trans (parent.mark_extends _)
  | .overriding overrides inner, marks =>
    (overrides.mark_extends marks).trans (inner.mark_extends _)
  | .recording _ inner, marks => inner.mark_extends marks
  | .injector id _ _, marks => .injector marks id

theorem Injector.mark_extends (injector : Injector) (marks : Marks) :
    marks.Extends (injector.mark marks) := by
  have hbindings := Bindings.mark_extends injector.registry.bindings marks
  have hresolver := hbindings.trans (.foldl (fun marks (first : ResolverInterceptor) =>
    first.mark_extends marks) injector.resolverInterceptors _)
  have hprovider := hresolver.trans (.foldl (fun marks (first : ProviderInterceptor) =>
    first.mark_extends marks) injector.providerInterceptors _)
  unfold mark
  cases injector.parent with
  | none => exact hprovider
  | some parent => exact hprovider.trans (.injector _ parent)

namespace World

theorem markStored_extends (value : Option Instance) (marks : Marks) :
    marks.Extends (markStored value marks) := by
  cases value with
  | none => exact .refl marks
  | some value => exact value.mark_extends marks

/-- The contents of the world add their marks to those that are there. -/
theorem mark_extends (world : World) (marks : Marks) : marks.Extends (world.mark marks) := by
  unfold mark
  refine ((Extends.foldl_array (fun marks slot => ?_) world.injectors marks).trans
    (.foldl_array (fun marks (cell : SingletonCell) => markStored_extends cell.value marks)
      world.singletons _)).trans
    (.foldl_array (fun marks value => markStored_extends value marks) world.lazies _)
  cases slot with
  | live injector => exact injector.mark_extends marks
  | pending | gone => exact .refl marks

/-! ## Collections -/

/-- What every release by the marks of some roots keeps is kept by a collection. -/
theorem collect_induction {P : World → Prop} {roots : Marks → Marks}
    (hrelease : ∀ world, P world → P (world.release (world.mark (roots world.unmarked))))
    (h : P world) : P (world.collect roots) := by
  have hsettle : ∀ rounds world, P world → P (settle roots rounds world) := by
    intro rounds
    induction rounds with
    | zero => exact fun _ h => h
    | succ rounds ih =>
      intro world h
      rw [settle]
      split
      · exact hrelease world h
      · exact ih _ (hrelease world h)
  exact hsettle _ world h

end World

/-! ## Names -/

namespace Session.State

/-- The cell of a lazy handle that has a name is marked. -/
theorem mark_handle {state : State} {pair : String × NamedHandle} (hpair : pair ∈ state.handles)
    (hcell : pair.2.cell = some cell) (hlt : cell < marks.lazies.size) :
    (state.mark marks).lazies.getD cell false = true := by
  unfold mark
  refine Extends.foldl_mem (fun marks pair => ?_) hpair (fun marks hlt => ?_)
    (Nat.lt_of_lt_of_eq hlt (Extends.size_eq ?_).symm)
  · split
    · exact .lazy marks _
    · exact .refl marks
  · rw [hcell]
    exact Marks.lazy_getD hlt
  · refine ((Extends.foldl (fun marks pair => ?_) state.resolvers marks).trans
      (.foldl (fun marks (pair : String × Provider) => pair.2.mark_extends marks)
        state.providers _)).trans
      (.foldl (fun marks (pair : String × CellId × Provider) => pair.2.2.mark_extends marks)
        state.singletons _)
    split
    · exact Resolver.mark_extends _ marks
    · exact .injector marks _
    · exact Resolver.mark_extends _ marks

end Session.State

end Injection
