/-
  Computations in the world that end with a value.

  * `Run.Ends run world P`: from `world` the computation ends with a value, and
    `P` holds of this value and of the world it leaves;
  * `World.Keeps`: what requests for instances leave as it was;
  * `Recipe.run_bind`: a recipe runs piece by piece.
-/
import Injection.Container.Resolution

namespace Injection

/-! ## Ending with a value -/

namespace Run

variable {α β : Type} {world : World} {P : α → World → Prop} {Q : β → World → Prop}

/-- A computation ends with a value, and the value and the world afterwards have a property. -/
def Ends (run : Run α) (world : World) (P : α → World → Prop) : Prop :=
  ∃ a world', run.run.run world = (.ok a, world') ∧ P a world'

theorem Ends.pure {a : α} (h : P a world) : Ends (pure a) world P := ⟨a, world, rfl, h⟩

theorem Ends.mono {run : Run α} {P' : α → World → Prop} (h : Ends run world P)
    (hP : ∀ a world', P a world' → P' a world') : Ends run world P' := by
  obtain ⟨a, world', hrun, ha⟩ := h
  exact ⟨a, world', hrun, hP a world' ha⟩

theorem Ends.bind {run : Run α} {f : α → Run β} (h : Ends run world P)
    (hf : ∀ a world', P a world' → Ends (f a) world' Q) : Ends (run >>= f) world Q := by
  obtain ⟨a, world', hrun, ha⟩ := h
  obtain ⟨b, world'', hrun', hb⟩ := hf a world' ha
  refine ⟨b, world'', ?_, hb⟩
  rw [ExceptT.run_bind, StateT.run_bind, hrun]
  exact hrun'

theorem Ends.get {f : World → Run β} (h : Ends (f world) world Q) :
    Ends (MonadState.get >>= f) world Q := h

theorem Ends.modifyGet {f : World → α × World} (h : P (f world).1 (f world).2) :
    Ends (modifyGet f) world P := ⟨_, _, rfl, h⟩

theorem Ends.modify {f : World → World} {P : PUnit → World → Prop} (h : P ⟨⟩ (f world)) :
    Ends (modify f) world P := ⟨_, _, rfl, h⟩

theorem Ends.ofExcept {result : Except Fault α} {a : α} (hok : result = .ok a) (h : P a world) :
    Ends (Run.ofExcept result) world P := by
  subst hok
  exact .pure h

/-- What is looked up with success changes the journal at most. -/
theorem Ends.lookup {lookup : Lookup α} {a : α}
    (hok : (lookup.run.run world.journal).1 = .ok a)
    (h : P a { world with journal := (lookup.run.run world.journal).2 }) :
    Ends (Run.lookup lookup) world P := by
  refine .bind (P := fun outcome world' => outcome = .ok a ∧ P a world')
    (.modifyGet (f := fun world : World => ((lookup.run.run world.journal).1,
      { world with journal := (lookup.run.run world.journal).2 })) ⟨hok, h⟩) ?_
  rintro outcome world' ⟨houtcome, hP⟩
  exact .ofExcept houtcome hP

theorem Ends.ending {run : Run α} {P : Except Stop α → World → Prop}
    (h : Ends run world fun a world' => P (.ok a) world') : Ends (Run.ending run) world P := by
  obtain ⟨a, world', hrun, hP⟩ := h
  refine ⟨.ok a, world', ?_, hP⟩
  show (ExceptT.lift run.run).run.run world = _
  rw [ExceptT.run_lift, StateT.run_map, hrun]
  rfl

theorem Ends.attempt {run : Run α} {P : Except Fault α → World → Prop}
    (h : Ends run world fun a world' => P (.ok a) world') : Ends (Run.attempt run) world P := by
  refine .bind (P := fun outcome world' => ∃ a, outcome = .ok a ∧ P (.ok a) world') (.ending ?_) ?_
  · exact h.mono fun a world' hP => ⟨a, rfl, hP⟩
  · rintro _ world' ⟨a, rfl, hP⟩
    exact .pure hP

end Run

/-! ## What requests leave as it was -/

/-- No injector came, went or changed, and the same singletons are being made. -/
structure World.Keeps (before after : World) : Prop where
  injectors : after.injectors = before.injectors
  making : ∀ cell, (after.singleton cell).making = (before.singleton cell).making

namespace World.Keeps

variable {before between after : World}

theorem refl (world : World) : world.Keeps world := ⟨rfl, fun _ => rfl⟩

theorem trans (h : before.Keeps between) (h' : between.Keeps after) : before.Keeps after :=
  ⟨h'.injectors.trans h.injectors, fun cell => (h'.making cell).trans (h.making cell)⟩

theorem injector? (h : before.Keeps after) (id : InjectorId) :
    after.injector? id = before.injector? id := by
  rw [World.injector?, World.injector?, h.injectors]

end World.Keeps

/-- A list of computations ends if each of them does and keeps what the others need. -/
theorem Run.mapM_ends {α β : Type} {world : World} {f : α → Run β} {as : List α}
    (h : ∀ a ∈ as, ∀ world', world.Keeps world' → (f a).Ends world' fun _ => world'.Keeps) :
    (as.mapM f).Ends world fun bs world' => bs.length = as.length ∧ world.Keeps world' := by
  induction as generalizing world with
  | nil => exact .pure ⟨rfl, .refl world⟩
  | cons a as ih =>
    rw [List.mapM_cons]
    refine .bind (h a List.mem_cons_self world (.refl world)) fun b world' hkeeps => ?_
    refine .bind (ih fun a' ha' world'' hkeeps' => ?_) fun bs world'' hrest => ?_
    · exact h a' (List.mem_cons_of_mem _ ha') world'' (hkeeps.trans hkeeps')
    · exact .pure ⟨congrArg Nat.succ hrest.1, hkeeps.trans hrest.2⟩

namespace World

variable {world : World}

theorem report_ends (event : Event) : (World.report event).Ends world fun _ => world.Keeps :=
  .lookup (a := ()) rfl ⟨rfl, fun _ => rfl⟩

theorem countCall_ends (calls : CounterId) :
    (World.countCall calls).Ends world fun _ => world.Keeps :=
  .modifyGet ⟨rfl, fun _ => rfl⟩

theorem nextSerial_ends : World.nextSerial.Ends world fun _ => world.Keeps :=
  .modifyGet ⟨rfl, fun _ => rfl⟩

theorem newLazy_ends : World.newLazy.Ends world fun _ => world.Keeps :=
  .modifyGet ⟨rfl, fun _ => rfl⟩

/-! ## Singletons -/

theorem singleton_congr {world' : World} (h : world'.singletons = world.singletons)
    (cell : CellId) : world'.singleton cell = world.singleton cell := by
  rw [singleton, singleton, h]

/-- The world in which one singleton changed. -/
def changed (world : World) (cell : CellId) (f : SingletonCell → SingletonCell) : World :=
  { world with singletons := world.singletons.modify cell f }

theorem singleton_changed (cell other : CellId) (f : SingletonCell → SingletonCell) :
    (world.changed cell f).singleton other =
      if other = cell ∧ cell < world.singletons.size then f (world.singleton other)
      else world.singleton other := by
  simp only [singleton, changed, Array.getD_eq_getD_getElem?, Array.getElem?_modify]
  by_cases hother : cell = other
  · subst hother
    by_cases hlt : cell < world.singletons.size <;> simp [hlt]
  · simp [hother, Ne.symm hother]

theorem making_changed_of_ne {cell other : CellId} (h : other ≠ cell)
    (f : SingletonCell → SingletonCell) :
    ((world.changed cell f).singleton other).making = (world.singleton other).making := by
  rw [singleton_changed, if_neg fun hother => h hother.1]

/-- The world in which a singleton is being made. -/
def started (world : World) (cell : CellId) : World :=
  world.changed cell fun state => { state with making := true }

/-- The world in which a singleton is not being made any more. -/
def stopped (world : World) (cell : CellId) : World :=
  world.changed cell fun state => { state with making := false }

/-- The world in which a singleton has its instance. -/
def filled (world : World) (cell : CellId) (value : Instance) : World :=
  world.changed cell fun state => { state with value := some value }

theorem making_stopped (cell : CellId) :
    ((world.stopped cell).singleton cell).making = false := by
  rw [stopped, singleton_changed]
  split
  · rfl
  · next hout =>
    have hnone : world.singletons[cell]? = none := by simpa using hout
    simp [singleton, hnone]

theorem filled_keeps (cell : CellId) (value : Instance) :
    world.Keeps (world.filled cell value) := by
  refine ⟨rfl, fun other => ?_⟩
  rw [filled, singleton_changed]
  split <;> rfl

/-- To set a flag and take it back leaves all flags as they were. -/
theorem stopped_keeps {cell : CellId} {made : World}
    (hidle : (world.singleton cell).making = false) (hkeeps : (world.started cell).Keeps made) :
    world.Keeps (made.stopped cell) := by
  refine ⟨hkeeps.injectors, fun other => ?_⟩
  by_cases hother : other = cell
  · subst hother
    rw [making_stopped, hidle]
  · rw [stopped, making_changed_of_ne hother, hkeeps.making, started, making_changed_of_ne hother]

/-- A singleton that is not being made can be asked for, if its delegate can be asked while it is
    being made. -/
theorem makeOnce_ends {cell : CellId} {delegate : Run Instance}
    (hidle : (world.singleton cell).making = false)
    (hdelegate : delegate.Ends (world.started cell) fun _ => (world.started cell).Keeps) :
    (World.makeOnce cell delegate).Ends world fun _ => world.Keeps := by
  refine .get ?_
  cases hvalue : (world.singleton cell).value with
  | some value =>
    simp only [hvalue]
    exact .pure (.refl world)
  | none =>
    simp only [hvalue, hidle, Bool.false_eq_true, if_false]
    refine .bind (.modify (P := fun _ world' => world' = world.started cell) rfl) ?_
    rintro _ _ rfl
    refine .bind (P := fun outcome world' => (∃ value, outcome = .ok value) ∧
      (world.started cell).Keeps world')
      (.ending (hdelegate.mono fun value _ hkeeps => ⟨⟨value, rfl⟩, hkeeps⟩)) ?_
    rintro _ made ⟨⟨result, rfl⟩, hkeeps⟩
    have hstopped : world.Keeps (made.stopped cell) := stopped_keeps hidle hkeeps
    refine .bind (.modify (P := fun _ world' => world' = made.stopped cell) rfl) ?_
    rintro _ _ rfl
    refine .bind (P := fun made' world' => made' = result ∧ world' = made.stopped cell)
      (.pure ⟨rfl, rfl⟩) ?_
    rintro value _ ⟨rfl, rfl⟩
    refine .bind (report_ends .singletonMade) fun _ reported hreported => ?_
    refine .bind (.modify (P := fun _ world' => world' = reported.filled cell value) rfl) ?_
    rintro _ _ rfl
    exact .pure ((hstopped.trans hreported).trans (filled_keeps cell value))

end World

/-! ## Recipes -/

namespace Recipe

variable {α β γ : Type} {ask : Key → Run Instance} {find : Key → Lookup (Option Provider)}

theorem bind_done (recipe : Recipe α) : recipe.bind .done = recipe := by
  induction recipe with
  | done | fail | abort => rfl
  | ask key next ih | search key next ih | newLazy next ih | serial next ih =>
    simp only [bind, ih]
  | note line next ih => simp only [bind, ih]

theorem bind_bind (recipe : Recipe α) (f : α → Recipe β) (g : β → Recipe γ) :
    (recipe.bind f).bind g = recipe.bind fun a => (f a).bind g := by
  induction recipe with
  | done | fail | abort => rfl
  | ask key next ih | search key next ih | newLazy next ih | serial next ih =>
    simp only [bind, ih]
  | note line next ih => simp only [bind, ih]

instance : LawfulMonad Recipe :=
  LawfulMonad.mk' Recipe (fun recipe => recipe.bind_done) (fun _ _ => rfl)
    (fun recipe f g => recipe.bind_bind f g)

/-- A recipe runs piece by piece. -/
theorem run_bind (recipe : Recipe α) (f : α → Recipe β) :
    (recipe >>= f).run ask find = recipe.run ask find >>= fun a => (f a).run ask find := by
  show (recipe.bind f).run ask find = _
  induction recipe with
  | done value => rfl
  | fail fault => rfl
  | abort label => rfl
  | ask key next ih | search key next ih | newLazy next ih | serial next ih | note line next ih =>
    simp only [bind, run, ih, bind_assoc]

theorem run_mapM (f : α → Recipe β) (as : List α) :
    (as.mapM f).run ask find = as.mapM fun a => (f a).run ask find := by
  induction as with
  | nil => rfl
  | cons a as ih =>
    simp only [List.mapM_cons, run_bind, ih]
    rfl

theorem request_ends {world : World} {key : Key} {P : Instance → World → Prop}
    (h : (ask key).Ends world P) : ((request key).run ask find).Ends world P := by
  refine .bind (P := fun answer world' => ∃ value, answer = .ok value ∧ P value world')
    (.attempt (h.mono fun value _ hP => ⟨value, rfl, hP⟩)) ?_
  rintro _ world' ⟨value, rfl, hP⟩
  exact .pure hP

/-- A handle is bound to the injector that is given for its key. -/
theorem handle_ends {world : World} {id : InjectorId} (key : Key) (expected : String)
    (h : (ask .injector).Ends world fun value world' =>
      value = .injector id ∧ world.Keeps world') :
    ((handle key expected).run ask find).Ends world fun handle world' =>
      handle = ⟨id, key, expected⟩ ∧ world.Keeps world' := by
  rw [handle, run_bind]
  refine .bind (P := fun value world' => value = .injector id ∧ world.Keeps world') ?_ ?_
  · refine .bind (P := fun answer world' => answer = .ok (.injector id) ∧ world.Keeps world')
      (.attempt (h.mono fun value world' hvalue => ⟨congrArg Except.ok hvalue.1, hvalue.2⟩)) ?_
    rintro _ world' ⟨rfl, hkeeps⟩
    exact .pure ⟨rfl, hkeeps⟩
  · rintro _ world' ⟨rfl, hkeeps⟩
    exact .pure ⟨rfl, hkeeps⟩

end Recipe

end Injection
