/-
  What computations in the world leave behind.

  * `Gives computation before a after`: from `before` the computation ends with
    the value `a` and leaves `after`; its rules take such an ending apart;
  * `World.Frame`: what a request for an instance can change, told by the
    relations that all of its changes keep to;
  * `Resolver.getInstance_within`: every request keeps to such a relation,
    however it ends;
  * `Resolver.getInstance_spares`, `World.frame_lazy`: so no request touches an
    injector, or the cell of a lazy handle that there was.
-/
import Injection.Container.Resolution

namespace Injection

theorem Run.get_bind {α : Type} (f : World → Run α) (world : World) :
    (MonadState.get >>= f : Run α).run.run world = (f world).run.run world := rfl

/-- A lookup reads and writes the journal only. -/
theorem Run.lookup_run {α : Type} (lookup : Lookup α) (world : World) :
    (Run.lookup lookup).run.run world =
      ((lookup.run.run world.journal).1.mapError .fault,
        { world with journal := (lookup.run.run world.journal).2 }) := by
  show (Run.ofExcept (lookup.run.run world.journal).1).run.run _ = _
  cases (lookup.run.run world.journal).1 with
  | ok value => rfl
  | error fault => rfl

/-- An attempt goes on with a value, or stops as the computation did. -/
theorem Run.attempt_rest {σ α : Type} {P : ExceptT Stop (StateM σ) (Except Fault α) → Prop}
    (hpure : ∀ answer, P (pure answer)) (hthrow : ∀ stop, P (throw stop))
    (outcome : Except Stop α) :
    P (match outcome with
      | .ok value => pure (.ok value)
      | .error (.fault fault) => pure (.error fault)
      | .error stop => throw stop) := by
  match outcome with
  | .ok value => exact hpure (.ok value)
  | .error (.fault fault) => exact hpure (.error fault)
  | .error (.abort label) => exact hthrow (.abort label)
  | .error .tooDeep => exact hthrow .tooDeep

/-! ## Endings with a value -/

/-- From `before` a computation ends with the value `a` and leaves `after`. -/
def Gives {ε σ α : Type} (computation : ExceptT ε (StateM σ) α) (before : σ) (a : α)
    (after : σ) : Prop :=
  computation.run.run before = (.ok a, after)

namespace Gives

section

variable {ε σ α β : Type} {before after : σ}

theorem pure_inv {a b : α} (h : Gives (pure a : ExceptT ε (StateM σ) α) before b after) :
    b = a ∧ after = before := by
  obtain ⟨hvalue, hstate⟩ := Prod.mk.inj h
  exact ⟨(Except.ok.inj hvalue).symm, hstate.symm⟩

theorem modifyGet_inv {f : σ → α × σ} {a : α}
    (h : Gives (modifyGet f : ExceptT ε (StateM σ) α) before a after) :
    a = (f before).1 ∧ after = (f before).2 := by
  obtain ⟨hvalue, hstate⟩ := Prod.mk.inj h
  exact ⟨(Except.ok.inj hvalue).symm, hstate.symm⟩

theorem throw_inv {e : ε} {a : α} (h : Gives (throw e : ExceptT ε (StateM σ) α) before a after) :
    False := by
  cases (Prod.mk.inj h).1

theorem bind_run {between : σ} {a : α} {computation : ExceptT ε (StateM σ) α}
    {f : α → ExceptT ε (StateM σ) β} (h : Gives computation before a between) :
    (computation >>= f).run.run before = (f a).run.run between := by
  rw [ExceptT.run_bind, StateT.run_bind, h]
  rfl

/-- A computation that ends with a value goes on with it. -/
theorem bind {between : σ} {a : α} {b : β} {computation : ExceptT ε (StateM σ) α}
    {f : α → ExceptT ε (StateM σ) β} (h : Gives computation before a between)
    (hf : Gives (f a) between b after) : Gives (computation >>= f) before b after := by
  rw [Gives, h.bind_run]
  exact hf

/-- A computation in two steps has ended its first one with a value. -/
theorem bind_inv {computation : ExceptT ε (StateM σ) α} {f : α → ExceptT ε (StateM σ) β} {b : β}
    (h : Gives (computation >>= f) before b after) :
    ∃ a between, Gives computation before a between ∧ Gives (f a) between b after := by
  unfold Gives at h
  rw [ExceptT.run_bind, StateT.run_bind] at h
  rcases hfirst : computation.run.run before with ⟨e | a, between⟩
  · rw [hfirst] at h
    cases (Prod.mk.inj h).1
  · rw [hfirst] at h
    exact ⟨a, between, hfirst, h⟩

/-- A computation whose value is changed has ended with a value. -/
theorem map_inv {computation : ExceptT ε (StateM σ) α} {f : α → β} {b : β}
    (h : Gives (f <$> computation) before b after) :
    ∃ a, Gives computation before a after ∧ b = f a := by
  rw [map_eq_pure_bind] at h
  obtain ⟨a, between, hfirst, hpure⟩ := bind_inv h
  obtain ⟨rfl, rfl⟩ := pure_inv hpure
  exact ⟨a, hfirst, rfl⟩

/-- The end of a computation as a value tells how the computation ended. -/
theorem lift_inv {computation : ExceptT ε (StateM σ) α} {outcome : Except ε α}
    (h : Gives (ExceptT.lift computation.run : ExceptT ε (StateM σ) (Except ε α)) before outcome
      after) :
    computation.run.run before = (outcome, after) := by
  have hlift : (ExceptT.lift computation.run : ExceptT ε (StateM σ) (Except ε α)).run.run before =
      (.ok (computation.run.run before).1, (computation.run.run before).2) := rfl
  obtain ⟨hvalue, hstate⟩ := Prod.mk.inj (hlift.symm.trans h)
  exact Prod.ext (Except.ok.inj hvalue) hstate

end

variable {α : Type} {world world' : World}

theorem lookup_inv {lookup : Lookup α} {a : α} (h : Gives (Run.lookup lookup) world a world') :
    ∃ journal, Gives lookup world.journal a journal ∧ world' = { world with journal } := by
  rw [Gives, Run.lookup_run] at h
  rcases hlookup : lookup.run.run world.journal with ⟨fault | value, journal⟩
  · rw [hlookup] at h
    cases (Prod.mk.inj h).1
  · rw [hlookup] at h
    obtain ⟨hvalue, rfl⟩ := Prod.mk.inj h
    obtain rfl := Except.ok.inj hvalue
    exact ⟨journal, hlookup, rfl⟩

theorem ending_inv {run : Run α} {outcome : Except Stop α}
    (h : Gives (Run.ending run) world outcome world') : run.run.run world = (outcome, world') :=
  lift_inv h

end Gives

/-! ## What holds between the start and the end of a computation -/

/-- A relation between worlds that no change made by a request for an instance breaks. -/
structure World.Frame (R : World → World → Prop) : Prop where
  refl : ∀ world, R world world
  trans : ∀ {before between after}, R before between → R between after → R before after
  journal : ∀ world journal, R world { world with journal }
  counters : ∀ world counters, R world { world with counters }
  serial : ∀ world serial, R world { world with serial }
  singletons : ∀ world singletons, R world { world with singletons }
  newLazy : ∀ world : World, R world { world with lazies := world.lazies.push none }

namespace Run

variable {α β : Type} {R : World → World → Prop}

/-- However the computation ends, the world that it leaves is related to the one before. -/
def Within (R : World → World → Prop) (run : Run α) : Prop :=
  ∀ world, R world (run.run.run world).2

namespace Within

theorem get {f : World → Run β} (h : ∀ world, (f world).Within R) :
    Within R (MonadState.get >>= f) := fun world => h world world

theorem modifyGet {f : World → α × World} (h : ∀ world, R world (f world).2) :
    Within R (modifyGet f) := h

theorem ending {run : Run α} (h : run.Within R) : (Run.ending run).Within R := h

variable (hR : World.Frame R)

include hR

theorem pure (a : α) : Within R (pure a) := hR.refl

theorem throw (stop : Stop) : Within R (throw stop : Run α) := hR.refl

theorem bind {run : Run α} {f : α → Run β} (h : run.Within R) (hf : ∀ a, (f a).Within R) :
    (run >>= f).Within R := by
  intro world
  have hfirst := h world
  rw [ExceptT.run_bind, StateT.run_bind]
  rcases hrun : run.run.run world with ⟨stop | a, between⟩
  · rw [hrun] at hfirst
    exact hfirst
  · rw [hrun] at hfirst
    exact hR.trans hfirst (hf a between)

theorem ofExcept (outcome : Except Fault α) : (ofExcept outcome).Within R := by
  cases outcome with
  | ok a => exact pure hR a
  | error fault => exact throw hR (.fault fault)

theorem lookup (lookup : Lookup α) : (Run.lookup lookup).Within R :=
  bind hR (modifyGet fun world => hR.journal world _) (ofExcept hR)

theorem ofEnding (outcome : Except Stop α) : (ofEnding outcome).Within R := by
  cases outcome with
  | ok a => exact pure hR a
  | error stop => exact throw hR stop

theorem attempt {run : Run α} (h : run.Within R) : (Run.attempt run).Within R :=
  bind hR (ending h) (attempt_rest (pure hR) (throw hR))

end Within

end Run

/-! ## Requests for instances -/

section

variable {R : World → World → Prop} (hR : World.Frame R) {ask : Key → Run Instance}
  {find : Key → Lookup (Option Provider)}

open Run (Within)

include hR

theorem World.makeOnce_within (cell : CellId) {delegate : Run Instance} (h : delegate.Within R) :
    (World.makeOnce cell delegate).Within R := by
  have hset : ∀ f, (World.modifySingleton cell f).Within R :=
    fun f => .modifyGet fun world => hR.singletons world _
  refine .get fun world => ?_
  dsimp only
  split
  · exact .pure hR _
  · split
    · exact .throw hR _
    · refine .bind hR (hset _) fun _ => .bind hR (.ending h) fun outcome => ?_
      refine .bind hR (hset _) fun _ => .bind hR (.ofEnding hR outcome) fun value => ?_
      exact .bind hR (.lookup hR _) fun _ => .bind hR (hset _) fun _ => .pure hR value

/-- A recipe keeps to what all requests that it makes keep to. -/
theorem Recipe.run_within {α : Type} (hask : ∀ key, (ask key).Within R) (recipe : Recipe α) :
    (recipe.run ask find).Within R := by
  induction recipe with
  | done value => exact .pure hR value
  | fail fault => exact .throw hR (.fault fault)
  | abort label => exact .throw hR (.abort label)
  | ask key next ih => exact .bind hR (.attempt hR (hask key)) ih
  | search key next ih => exact .bind hR (.lookup hR _) fun answer => ih _
  | newLazy next ih => exact .bind hR (.modifyGet hR.newLazy) ih
  | serial next ih => exact .bind hR (.modifyGet fun world => hR.serial world _) ih
  | note line next ih => exact .bind hR (.lookup hR _) fun _ => ih

theorem Provider.get_within (hask : ∀ key, (ask key).Within R) (provider : Provider) :
    (provider.get ask find).Within R := by
  induction provider with
  | ready value => exact .pure hR value
  | self id =>
    refine .get fun world => ?_
    split
    · exact .pure hR _
    · exact .throw hR _
  | factory calls recipe =>
    refine .bind hR (.modifyGet fun world => hR.counters world _) fun call => ?_
    exact Recipe.run_within hR hask (recipe call)
  | singleton cell delegate ih => exact World.makeOnce_within hR cell ih

/-- A request for an instance changes the world in these ways only, however deep its requests are
    nested and however it ends. -/
theorem Resolver.getInstance_within (depth : Nat) (resolver : Resolver) (key : Key) :
    (resolver.getInstance depth key).Within R := by
  induction depth generalizing key with
  | zero => exact .throw hR .tooDeep
  | succ depth ih => exact .bind hR (.lookup hR _) fun provider => provider.get_within hR ih

theorem Resolver.getTyped_within (depth : Nat) (resolver : Resolver) (key : Key)
    (expected : String) : (resolver.getTyped depth key expected).Within R :=
  .bind hR (resolver.getInstance_within hR depth key) fun _ => .ofExcept hR _

end

/-! ## Injectors that stay as they are -/

theorem World.frame_injectors : Frame fun before after => after.injectors = before.injectors where
  refl _ := rfl
  trans h h' := h'.trans h
  journal _ _ := rfl
  counters _ _ := rfl
  serial _ _ := rfl
  singletons _ _ := rfl
  newLazy _ := rfl

namespace Run

variable {α β : Type}

/-- However the computation ends, the injectors are those there were before. -/
def Spares (run : Run α) : Prop :=
  ∀ world, (run.run.run world).2.injectors = world.injectors

namespace Spares

/-- What ends with a value leaves the injectors as they were. -/
theorem injectors {run : Run α} (h : run.Spares) {world world' : World} {a : α}
    (hgives : Gives run world a world') : world'.injectors = world.injectors := by
  have hworld := h world
  rw [hgives] at hworld
  exact hworld

theorem pure (a : α) : Spares (pure a) := Within.pure World.frame_injectors a

theorem modifyGet {f : World → α × World} (h : ∀ world, (f world).2.injectors = world.injectors) :
    Spares (modifyGet f) := h

theorem bind {run : Run α} {f : α → Run β} (h : run.Spares) (hf : ∀ a, (f a).Spares) :
    (run >>= f).Spares :=
  Within.bind World.frame_injectors h hf

theorem lookup (lookup : Lookup α) : (Run.lookup lookup).Spares :=
  Within.lookup World.frame_injectors lookup

end Spares

end Run

/-- No request for an instance touches an injector, however deep its requests are nested. -/
theorem Resolver.getInstance_spares (depth : Nat) (resolver : Resolver) (key : Key) :
    (resolver.getInstance depth key).Spares :=
  resolver.getInstance_within World.frame_injectors depth key

/-! ## Cells that stay as they are -/

/-- The cell of a lazy handle, if there is one of this number, has what it had. -/
def World.KeepsLazy (cell : LazyId) (before after : World) : Prop :=
  ∀ value, before.lazies[cell]? = some value → after.lazies[cell]? = some value

theorem World.frame_lazy (cell : LazyId) : Frame (KeepsLazy cell) where
  refl _ _ h := h
  trans h h' value hvalue := h' value (h value hvalue)
  journal _ _ _ h := h
  counters _ _ _ h := h
  serial _ _ _ h := h
  singletons _ _ _ h := h
  newLazy world value h := by
    obtain ⟨hlt, -⟩ := Array.getElem?_eq_some_iff.1 h
    rw [Array.getElem?_push, if_neg (Nat.ne_of_lt hlt), h]

end Injection
