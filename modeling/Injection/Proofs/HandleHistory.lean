/-
  What deferred handles answer in the course of time.

  A program holds plain and lazy handles bound to one injector and asks them in
  any order, while other requests are made and things are released in between.
  At some moment the injector itself is released.

  * `History`: what was asked so far and how it ended, and the world it led to;
  * `gets`, `firstOf`: the outcomes of one handle, and the first instance among
    them;
  * `History.sound`: a lazy handle holds the first instance that it gave itself,
    and nothing before that, whatever happened besides;
  * `History.handle_answers`: what each handle answers next, at every moment.
-/
import Injection.Container.Handle
import Injection.Proofs.AssociationList
import Injection.Proofs.Effects
import Injection.Proofs.Release
import Injection.Session.Script

namespace Injection

open Session (NamedHandle)

/-! ## Asking a handle -/

/-- Asks a plain handle for an instance, and a lazy one for the instance that it keeps. -/
def Session.NamedHandle.ask (depth : Nat) (named : NamedHandle) : Run Instance :=
  match named.cell with
  | none => named.handle.get depth
  | some cell => named.handle.getLazy depth cell

/-- What a handle asks of its injector. -/
def Session.NamedHandle.resolve (injector : Injector) (depth : Nat) (named : NamedHandle) :
    Run Instance :=
  (injector.resolver named.handle.injector).getTyped depth named.handle.key named.handle.expected

/-- An instance of another type than the one expected is a fault. -/
theorem Session.NamedHandle.resolve_mismatch {injector : Injector} {depth : Nat}
    {named : NamedHandle} {world after : World} {value : Instance}
    (h : ((injector.resolver named.handle.injector).getInstance depth named.handle.key).run.run
      world = (.ok value, after)) (htype : value.type ≠ named.handle.expected) :
    (named.resolve injector depth).run.run world =
      (.error (.fault (.wrongType named.handle.key named.handle.expected)), after) := by
  rw [resolve, Resolver.getTyped, ExceptT.run_bind, StateT.run_bind, h]
  show (Run.ofExcept (value.checked _ _)).run.run after = _
  rw [Instance.checked, if_neg htype]
  rfl

/-- A script asks its handles in this way. -/
theorem Session.Act.askHandle_eq (named : NamedHandle) :
    askHandle named.handle named.cell = named.ask Act.depth := by
  cases h : named.cell <;> simp [askHandle, NamedHandle.ask, h]

/-- The world after a request for a lazy handle: an instance is kept in its cell. -/
def World.kept (cell : LazyId) (outcome : Except Stop Instance) (world : World) : World :=
  match outcome with
  | .ok value => { world with lazies := world.lazies.setIfInBounds cell (some value) }
  | .error _ => world

namespace Handle

variable {handle : Handle} {world : World} {cell : LazyId}

/-- While its injector is alive, a handle resolves its key. -/
theorem get_alive {injector : Injector} (h : world.injector? handle.injector = some injector)
    (depth : Nat) :
    (handle.get depth).run.run world =
      ((injector.resolver handle.injector).getTyped depth handle.key handle.expected).run.run
        world := by
  rw [get, Run.get_bind, h]

theorem get_gone (h : world.injector? handle.injector = none) (depth : Nat) :
    (handle.get depth).run.run world = (.error (.fault (.injectorGone handle.key)), world) := by
  rw [get, Run.get_bind, h]
  rfl

/-- A lazy handle that keeps an instance gives it, and changes nothing. -/
theorem getLazy_kept {value : Instance} (h : world.lazies[cell]? = some (some value))
    (depth : Nat) : (handle.getLazy depth cell).run.run world = (.ok value, world) := by
  have hlazy : world.lazy? cell = some value := by rw [World.lazy?, h]; rfl
  rw [getLazy, Run.get_bind, hlazy]
  rfl

/-- A lazy handle that keeps none asks as a plain one does, and keeps what it gets. -/
theorem getLazy_pending (h : world.lazies[cell]? = some none) (depth : Nat) :
    (handle.getLazy depth cell).run.run world =
      (((handle.get depth).run.run world).1,
        ((handle.get depth).run.run world).2.kept cell ((handle.get depth).run.run world).1) := by
  have hlazy : world.lazy? cell = none := by rw [World.lazy?, h]; rfl
  rw [getLazy, Run.get_bind, hlazy]
  show ((handle.get depth >>= _ : Run Instance).run.run world) = _
  rw [ExceptT.run_bind, StateT.run_bind]
  rcases (handle.get depth).run.run world with ⟨stop | value, after⟩
  · rfl
  · rfl

theorem get_within {R : World → World → Prop} (hR : World.Frame R) (handle : Handle)
    (depth : Nat) : (handle.get depth).Within R := by
  refine .get fun world => ?_
  split
  · next injector _ => exact Resolver.getTyped_within hR depth _ _ _
  · exact .throw hR _

end Handle

/-- Asking a handle keeps to what requests keep to, if keeping an instance in its cell does. -/
theorem Session.NamedHandle.ask_within {R : World → World → Prop} (hR : World.Frame R)
    {named : NamedHandle} (hkeep : ∀ cell ∈ named.cell, ∀ (world : World) (value : Instance),
      R world { world with lazies := world.lazies.setIfInBounds cell (some value) })
    (depth : Nat) : (named.ask depth).Within R := by
  have hget := Handle.get_within hR named.handle depth
  rw [ask]
  split
  · exact hget
  · next cell hcell =>
    refine .get fun world => ?_
    split
    · exact .pure hR _
    · refine .bind hR hget fun value => ?_
      exact .bind hR (.modifyGet fun world => hkeep cell hcell world value) fun _ => .pure hR value

/-! ## Histories -/

/-- What happens to the handles of a program: the handle of a place is asked, which ends in some
    way, or the injector is released. -/
inductive Occurrence where
  | asked (n : Nat) (outcome : Except Stop Instance)
  | dropped

/-- How the requests for the handle of a place ended, in their order. -/
def gets (n : Nat) (past : List Occurrence) : List (Except Stop Instance) :=
  past.filterMap fun
    | .asked m outcome => if m = n then some outcome else none
    | .dropped => none

/-- The first instance that the handle of a place gave. -/
def firstOf (n : Nat) (past : List Occurrence) : Option Instance :=
  (gets n past).findSome? Except.toOption

section

variable {n m : Nat} {past : List Occurrence} {outcome : Except Stop Instance}

@[simp] theorem gets_asked_self :
    gets n (past ++ [.asked n outcome]) = gets n past ++ [outcome] := by
  simp [gets]

@[simp] theorem gets_asked_of_ne (h : m ≠ n) :
    gets n (past ++ [.asked m outcome]) = gets n past := by
  simp [gets, h]

@[simp] theorem gets_dropped : gets n (past ++ [.dropped]) = gets n past := by
  simp [gets]

theorem mem_gets : outcome ∈ gets n past ↔ .asked n outcome ∈ past := by
  simp only [gets, List.mem_filterMap]
  constructor
  · rintro ⟨occurrence, hmem, hsome⟩
    cases occurrence with
    | dropped => cases hsome
    | asked m other =>
      obtain ⟨rfl, hother⟩ := Option.ite_none_right_eq_some.1 hsome
      obtain rfl := Option.some.inj hother
      exact hmem
  · exact fun hmem => ⟨_, hmem, if_pos rfl⟩

/-- An instance that was the first one stays it; before there is one, the last outcome decides. -/
theorem firstOf_asked_self :
    firstOf n (past ++ [.asked n outcome]) = (firstOf n past).or outcome.toOption := by
  simp [firstOf, List.findSome?_append]

theorem firstOf_asked_of_ne (h : m ≠ n) :
    firstOf n (past ++ [.asked m outcome]) = firstOf n past := by
  rw [firstOf, gets_asked_of_ne h, firstOf]

theorem firstOf_dropped : firstOf n (past ++ [.dropped]) = firstOf n past := by
  rw [firstOf, gets_dropped, firstOf]

/-- There is a first instance if any request gave one. -/
theorem firstOf_isSome_iff :
    (firstOf n past).isSome = true ↔ ∃ value, .asked n (.ok value) ∈ past := by
  simp only [firstOf, List.findSome?_isSome_iff, ← mem_gets]
  constructor
  · rintro ⟨outcome, hmem, hsome⟩
    cases outcome with
    | ok value => exact ⟨value, hmem⟩
    | error stop => cases hsome
  · rintro ⟨value, hmem⟩
    exact ⟨.ok value, hmem, rfl⟩

end

/-- The world around a number of handles: what happens there leaves the injector and the cells of
    the handles alone. -/
structure World.Aside (id : InjectorId) (handles : List NamedHandle) (before after : World) :
    Prop where
  injector?_eq : after.injector? id = before.injector? id
  keeps : ∀ named ∈ handles, ∀ cell ∈ named.cell, before.KeepsLazy cell after

/-- Handles of one injector, what happened to them so far, and the world after it.  A program gets
    its handles one by one and asks them in any order, as deep as it likes.  In between other things
    may happen, such as requests through resolvers, and what nothing holds is released. -/
inductive History (id : InjectorId) (injector : Injector) :
    List NamedHandle → List Occurrence → World → Prop where
  | start {world : World} (h : world.injector? id = some injector) : History id injector [] [] world
  /-- A new handle; the cell of a lazy one is its own, and empty. -/
  | handle {handles : List NamedHandle} {past : List Occurrence} {world : World}
    (h : History id injector handles past world) (named : NamedHandle)
    (hbound : named.handle.injector = id)
    (hfresh : ∀ cell ∈ named.cell, world.lazies[cell]? = some none ∧
      ∀ other ∈ handles, other.cell ≠ some cell) :
    History id injector (handles ++ [named]) past world
  | ask {handles : List NamedHandle} {past : List Occurrence} {world : World}
    (h : History id injector handles past world) {n : Nat} {named : NamedHandle}
    (hn : handles[n]? = some named) (depth : Nat) :
    History id injector handles (past ++ [.asked n ((named.ask depth).run.run world).1])
      ((named.ask depth).run.run world).2
  | other {handles : List NamedHandle} {past : List Occurrence} {world world' : World}
    (h : History id injector handles past world) (haside : world.Aside id handles world') :
    History id injector handles past world'
  /-- The last hold of the injector is gone, while the handles hold their cells. -/
  | drop {handles : List NamedHandle} {past : List Occurrence} {world : World}
    (h : History id injector handles past world) (marks : Marks)
    (hcells : ∀ named ∈ handles, ∀ cell ∈ named.cell, marks.lazies.getD cell false = true)
    (hdrop : marks.injectors.getD id false = false) :
    History id injector handles (past ++ [.dropped]) (world.release marks)

/-! ## What a history keeps -/

section

variable {id : InjectorId} {injector : Injector} {handles : List NamedHandle}
  {past : List Occurrence} {world : World} {n : Nat} {named : NamedHandle} {cell : LazyId}

/-- Requests leave alone what stands aside, and so does all that they do. -/
theorem World.frame_aside : Frame (Aside id handles) where
  refl world := ⟨rfl, fun _ _ cell _ => (frame_lazy cell).refl world⟩
  trans h h' := ⟨h'.injector?_eq.trans h.injector?_eq, fun named hnamed cell hcell =>
    (frame_lazy cell).trans (h.keeps named hnamed cell hcell) (h'.keeps named hnamed cell hcell)⟩
  journal world journal := ⟨rfl, fun _ _ cell _ => (frame_lazy cell).journal world journal⟩
  counters world counters := ⟨rfl, fun _ _ cell _ => (frame_lazy cell).counters world counters⟩
  serial world serial := ⟨rfl, fun _ _ cell _ => (frame_lazy cell).serial world serial⟩
  singletons world cells := ⟨rfl, fun _ _ cell _ => (frame_lazy cell).singletons world cells⟩
  newLazy world := ⟨rfl, fun _ _ cell _ => (frame_lazy cell).newLazy world⟩

/-- A release that finds the injector and the cells of the handles held leaves them alone. -/
theorem World.release_aside {marks : Marks} (world : World)
    (hcells : ∀ named ∈ handles, ∀ cell ∈ named.cell, marks.lazies.getD cell false = true)
    (hheld : marks.injectors.getD id false = true) :
    world.Aside id handles (world.release marks) where
  injector?_eq := by rw [injector?_release, if_pos hheld]
  keeps named hnamed cell hcell value hvalue := by
    rw [lazies_release (hcells named hnamed cell hcell), hvalue]

/-- How the injector and the handles stand after a history. -/
structure Sound (id : InjectorId) (injector : Injector) (handles : List NamedHandle)
    (past : List Occurrence) (world : World) : Prop where
  alive : .dropped ∉ past → world.injector? id = some injector
  gone : .dropped ∈ past → world.injector? id = none
  bound : ∀ named ∈ handles, named.handle.injector = id
  apart : ∀ {n m : Nat} {named other : NamedHandle} {cell : LazyId}, handles[n]? = some named →
    handles[m]? = some other → named.cell = some cell → other.cell = some cell → n = m
  known : ∀ n outcome, .asked n outcome ∈ past → n < handles.length
  /-- A lazy handle keeps the first instance that it gave itself. -/
  kept : ∀ {n named cell}, handles[n]? = some named → named.cell = some cell →
    world.lazies[cell]? = some (firstOf n past)

/-- What the handle of a place answers, as deep as it is asked. -/
structure Answers (id : InjectorId) (injector : Injector) (past : List Occurrence) (world : World)
    (n : Nat) (named : NamedHandle) : Prop where
  /-- A plain handle resolves its key anew each time. -/
  plain_alive : named.cell = none → .dropped ∉ past → ∀ depth,
    (named.ask depth).run.run world = (named.resolve injector depth).run.run world
  plain_gone : named.cell = none → .dropped ∈ past → ∀ depth,
    (named.ask depth).run.run world = (.error (.fault (.injectorGone named.handle.key)), world)
  /-- A lazy handle that gave an instance gives it again, and resolves nothing. -/
  lazy_kept : ∀ cell ∈ named.cell, ∀ value ∈ firstOf n past, ∀ depth,
    (named.ask depth).run.run world = (.ok value, world)
  /-- One that gave none resolves its key anew, and keeps an instance only. -/
  lazy_alive : ∀ cell ∈ named.cell, firstOf n past = none → .dropped ∉ past → ∀ depth,
    (named.ask depth).run.run world =
      (((named.resolve injector depth).run.run world).1,
        ((named.resolve injector depth).run.run world).2.kept cell
          ((named.resolve injector depth).run.run world).1)
  lazy_gone : ∀ cell ∈ named.cell, firstOf n past = none → .dropped ∈ past → ∀ depth,
    (named.ask depth).run.run world = (.error (.fault (.injectorGone named.handle.key)), world)
  /-- An instance of another type than the handle's is a fault. -/
  mismatched : .dropped ∉ past → (∀ cell ∈ named.cell, firstOf n past = none) →
    ∀ depth value after, ((injector.resolver id).getInstance depth named.handle.key).run.run world =
      (.ok value, after) → value.type ≠ named.handle.expected → (named.ask depth).run.run world =
        (.error (.fault (.wrongType named.handle.key named.handle.expected)), after)
  /-- No failure is remembered, whatever it was. -/
  forgets : ∀ cell ∈ named.cell, ∀ depth stop,
    ((named.ask depth).run.run world).1 = .error stop →
      ((named.ask depth).run.run world).2.lazy? cell = none
  /-- The state of a lazy handle is told by the outcomes of its own requests. -/
  state_eq : ∀ cell ∈ named.cell, world.lazy? cell = firstOf n past
  resolved_iff : ∀ cell ∈ named.cell,
    (world.lazy? cell).isSome = true ↔ ∃ value, .asked n (.ok value) ∈ past

namespace Sound

theorem start (h : world.injector? id = some injector) : Sound id injector [] [] world where
  alive _ := h
  gone h := nomatch h
  bound _ h := nomatch h
  apart h := nomatch h
  known _ _ h := nomatch h
  kept h := nomatch h

/-- A new handle has no past. -/
theorem firstOf_length (h : Sound id injector handles past world) :
    firstOf handles.length past = none := by
  rw [← Option.not_isSome_iff_eq_none, firstOf_isSome_iff]
  rintro ⟨value, hmem⟩
  exact Nat.lt_irrefl _ (h.known _ _ hmem)

theorem handle (h : Sound id injector handles past world) (hbound : named.handle.injector = id)
    (hfresh : ∀ cell ∈ named.cell, world.lazies[cell]? = some none ∧
      ∀ other ∈ handles, other.cell ≠ some cell) :
    Sound id injector (handles ++ [named]) past world := by
  have hcases : ∀ {n other}, (handles ++ [named])[n]? = some other →
      handles[n]? = some other ∨ n = handles.length ∧ other = named := by
    intro n other hother
    rw [List.getElem?_append] at hother
    split at hother
    · exact .inl hother
    · next hle =>
      rw [List.getElem?_singleton] at hother
      obtain ⟨hzero, hsame⟩ := Option.ite_none_right_eq_some.1 hother
      exact .inr ⟨by omega, (Option.some.inj hsame).symm⟩
  constructor
  case alive => exact h.alive
  case gone => exact h.gone
  case bound =>
    intro other hother
    rcases List.mem_append.1 hother with hother | hother
    · exact h.bound other hother
    · rw [List.mem_singleton.1 hother]
      exact hbound
  case apart =>
    intro n m first second cell hn hm hfirst hsecond
    rcases hcases hn with hold | ⟨rfl, rfl⟩ <;> rcases hcases hm with hold' | ⟨rfl, rfl⟩
    · exact h.apart hold hold' hfirst hsecond
    · exact absurd hfirst ((hfresh cell hsecond).2 first (List.mem_of_getElem? hold))
    · exact absurd hsecond ((hfresh cell hfirst).2 second (List.mem_of_getElem? hold'))
    · rfl
  case known =>
    intro n outcome hmem
    rw [List.length_append, List.length_singleton]
    exact Nat.lt_succ_of_lt (h.known n outcome hmem)
  case kept =>
    intro n other cell hn hcell
    rcases hcases hn with hold | ⟨rfl, rfl⟩
    · exact h.kept hold hcell
    · rw [h.firstOf_length]
      exact (hfresh cell hcell).1

theorem other {world' : World} (h : Sound id injector handles past world)
    (haside : world.Aside id handles world') : Sound id injector handles past world' where
  alive hnot := haside.injector?_eq.trans (h.alive hnot)
  gone hdropped := haside.injector?_eq.trans (h.gone hdropped)
  bound := h.bound
  apart := h.apart
  known := h.known
  kept hn hcell := haside.keeps _ (List.mem_of_getElem? hn) _ hcell _ (h.kept hn hcell)

theorem drop {marks : Marks} (h : Sound id injector handles past world)
    (hcells : ∀ named ∈ handles, ∀ cell ∈ named.cell, marks.lazies.getD cell false = true)
    (hdrop : marks.injectors.getD id false = false) :
    Sound id injector handles (past ++ [.dropped]) (world.release marks) where
  alive hnot := absurd (List.mem_append_right past List.mem_cons_self) hnot
  gone _ := by
    rw [World.injector?_release, hdrop]
    rfl
  bound := h.bound
  apart := h.apart
  known n outcome hmem := h.known n outcome ((List.mem_append.1 hmem).resolve_right nofun)
  kept hn hcell := by
    rw [World.lazies_release (hcells _ (List.mem_of_getElem? hn) _ hcell), h.kept hn hcell,
      firstOf_dropped]

theorem ask_kept (h : Sound id injector handles past world) (hn : handles[n]? = some named)
    (hcell : named.cell = some cell) {value : Instance} (hvalue : firstOf n past = some value)
    (depth : Nat) : (named.ask depth).run.run world = (.ok value, world) := by
  rw [NamedHandle.ask, hcell]
  refine Handle.getLazy_kept ?_ depth
  rw [h.kept hn hcell, hvalue]

theorem ask_pending (h : Sound id injector handles past world) (hn : handles[n]? = some named)
    (hcell : named.cell = some cell) (hnone : firstOf n past = none) (depth : Nat) :
    (named.ask depth).run.run world =
      (((named.handle.get depth).run.run world).1,
        ((named.handle.get depth).run.run world).2.kept cell
          ((named.handle.get depth).run.run world).1) := by
  have hpending := h.kept hn hcell
  rw [hnone] at hpending
  rw [NamedHandle.ask, hcell]
  exact Handle.getLazy_pending hpending depth

/-- The cell of a handle after the handle was asked. -/
theorem ask_own (h : Sound id injector handles past world) (hn : handles[n]? = some named)
    (hcell : named.cell = some cell) (depth : Nat) :
    ((named.ask depth).run.run world).2.lazies[cell]? =
      some ((firstOf n past).or ((named.ask depth).run.run world).1.toOption) := by
  have hkept := h.kept hn hcell
  cases hfirst : firstOf n past with
  | some value =>
    rw [h.ask_kept hn hcell hfirst depth, hkept, hfirst]
    rfl
  | none =>
    rw [hfirst] at hkept
    rw [h.ask_pending hn hcell hfirst]
    -- while the key is resolved, the cell stays empty
    have hempty := Handle.get_within (World.frame_lazy cell) named.handle depth world _ hkept
    rcases hget : (named.handle.get depth).run.run world with ⟨stop | value, after⟩
    · rw [hget] at hempty
      exact hempty
    · rw [hget] at hempty
      obtain ⟨hlt, -⟩ := Array.getElem?_eq_some_iff.1 hempty
      exact Array.getElem?_setIfInBounds_self_of_lt hlt

theorem answers (h : Sound id injector handles past world) (hn : handles[n]? = some named) :
    Answers id injector past world n named := by
  have hbound := h.bound named (List.mem_of_getElem? hn)
  have halive : .dropped ∉ past → world.injector? named.handle.injector = some injector := by
    rw [hbound]
    exact h.alive
  have hgone : .dropped ∈ past → world.injector? named.handle.injector = none := by
    rw [hbound]
    exact h.gone
  have hstate : ∀ cell ∈ named.cell, world.lazy? cell = firstOf n past := by
    intro cell hcell
    rw [World.lazy?, h.kept hn hcell]
    rfl
  constructor
  case plain_alive =>
    intro hplain hnot depth
    rw [NamedHandle.ask, hplain]
    exact Handle.get_alive (halive hnot) depth
  case plain_gone =>
    intro hplain hdropped depth
    rw [NamedHandle.ask, hplain]
    exact Handle.get_gone (hgone hdropped) depth
  case lazy_kept => exact fun cell hcell value hvalue => h.ask_kept hn hcell hvalue
  case lazy_alive =>
    intro cell hcell hnone hnot depth
    rw [h.ask_pending hn hcell hnone, Handle.get_alive (halive hnot)]
    rfl
  case lazy_gone =>
    intro cell hcell hnone hdropped depth
    rw [h.ask_pending hn hcell hnone, Handle.get_gone (hgone hdropped)]
    rfl
  case mismatched =>
    intro hnot hnone depth value after hvalue htype
    rw [← hbound] at hvalue
    have hmismatch := NamedHandle.resolve_mismatch hvalue htype
    cases hcell : named.cell with
    | none =>
      rw [NamedHandle.ask, hcell]
      exact (Handle.get_alive (halive hnot) depth).trans hmismatch
    | some cell =>
      have hget : (named.handle.get depth).run.run world = _ :=
        (Handle.get_alive (halive hnot) depth).trans hmismatch
      rw [h.ask_pending hn hcell (hnone cell hcell), hget]
      rfl
  case forgets =>
    intro cell hcell depth stop hstop
    have hafter := h.ask_own hn hcell depth
    cases hfirst : firstOf n past with
    | some value =>
      rw [h.ask_kept hn hcell hfirst] at hstop
      cases hstop
    | none =>
      rw [hfirst, hstop] at hafter
      rw [World.lazy?, hafter]
      rfl
  case state_eq => exact hstate
  case resolved_iff =>
    intro cell hcell
    rw [hstate cell hcell, firstOf_isSome_iff]

theorem ask (h : Sound id injector handles past world) (hn : handles[n]? = some named)
    (depth : Nat) :
    Sound id injector handles (past ++ [.asked n ((named.ask depth).run.run world).1])
      ((named.ask depth).run.run world).2 := by
  have hdropped : ∀ {outcome}, .dropped ∈ past ++ [.asked n outcome] ↔ .dropped ∈ past := by
    simp
  have hinjectors : ((named.ask depth).run.run world).2.injectors = world.injectors :=
    NamedHandle.ask_within World.frame_injectors (fun _ _ _ _ => rfl) depth world
  have hinjector : ((named.ask depth).run.run world).2.injector? id = world.injector? id := by
    rw [World.injector?, World.injector?, hinjectors]
  constructor
  case alive =>
    intro hnot
    rw [hinjector]
    exact h.alive (mt hdropped.2 hnot)
  case gone =>
    intro hmem
    rw [hinjector]
    exact h.gone (hdropped.1 hmem)
  case bound => exact h.bound
  case apart => exact h.apart
  case known =>
    intro m outcome hmem
    rcases List.mem_append.1 hmem with hmem | hmem
    · exact h.known m outcome hmem
    · obtain ⟨rfl, -⟩ := Occurrence.asked.inj (List.mem_singleton.1 hmem)
      exact (List.getElem?_eq_some_iff.1 hn).1
  case kept =>
    intro m other cell hm hcell
    by_cases hsame : n = m
    · subst hsame
      obtain rfl := Option.some.inj (hn.symm.trans hm)
      rw [firstOf_asked_self, h.ask_own hn hcell]
    · rw [firstOf_asked_of_ne hsame]
      -- the cell of another handle is not the one that may change
      refine NamedHandle.ask_within (World.frame_lazy cell) ?_ depth world _ (h.kept hm hcell)
      intro own hown world value kept hkept
      have hne : own ≠ cell := by
        rintro rfl
        exact hsame (h.apart hn hm hown hcell)
      simp only [Array.getElem?_setIfInBounds_ne hne, hkept]

end Sound

/-- Histories keep what they say of the injector and the handles. -/
theorem History.sound (h : History id injector handles past world) :
    Sound id injector handles past world := by
  induction h with
  | start h => exact .start h
  | handle h named hbound hfresh ih => exact ih.handle hbound hfresh
  | ask h hn depth ih => exact ih.ask hn depth
  | other h haside ih => exact ih.other haside
  | drop h marks hcells hdrop ih => exact ih.drop hcells hdrop

/-- Requests through resolvers and releases of what nothing holds may come at any time. -/
theorem History.request (h : History id injector handles past world) (resolver : Resolver)
    (depth : Nat) (key : Key) :
    History id injector handles past ((resolver.getInstance depth key).run.run world).2 :=
  .other h (resolver.getInstance_within World.frame_aside depth key world)

theorem History.release {marks : Marks} (h : History id injector handles past world)
    (hcells : ∀ named ∈ handles, ∀ cell ∈ named.cell, marks.lazies.getD cell false = true) :
    History id injector handles
      (if marks.injectors.getD id false then past else past ++ [.dropped])
      (world.release marks) := by
  cases hheld : marks.injectors.getD id false with
  | true => exact .other h (world.release_aside hcells hheld)
  | false => exact .drop h marks hcells hheld

/-- A collection that finds the cells of the handles held drops the injector or leaves it alone. -/
theorem History.collect {roots : Marks → Marks} (h : History id injector handles past world)
    (hroots : ∀ world : World, ∀ named ∈ handles, ∀ cell ∈ named.cell,
      cell < world.lazies.size → (roots world.unmarked).lazies.getD cell false = true) :
    ∃ drops, History id injector handles (past ++ .replicate drops .dropped)
      (world.collect roots) := by
  refine World.collect_induction (P := fun world => ∃ drops,
    History id injector handles (past ++ .replicate drops .dropped) world) ?_ ⟨0, by simpa using h⟩
  rintro world ⟨drops, h⟩
  have hcells : ∀ named ∈ handles, ∀ cell ∈ named.cell,
      (world.mark (roots world.unmarked)).lazies.getD cell false = true := by
    intro named hnamed cell hcell
    obtain ⟨n, hn⟩ := List.getElem?_of_mem hnamed
    have hlt := (Array.getElem?_eq_some_iff.1 (h.sound.kept hn hcell)).1
    exact (world.mark_extends _).keeps cell (hroots world named hnamed cell hcell hlt)
  have hrelease := h.release hcells
  split at hrelease
  · exact ⟨drops, hrelease⟩
  · refine ⟨drops + 1, ?_⟩
    rwa [List.replicate_succ', ← List.append_assoc]

/-- So it is with what a script lets go of after a step, if all the handles have names. -/
theorem History.tidy {state : Session.State} (h : History id injector handles past state.world)
    (hnames : ∀ named ∈ handles, ∃ name, (name, named) ∈ state.handles) :
    ∃ drops, History id injector handles (past ++ .replicate drops .dropped) state.tidy.world := by
  have hroots : ∀ world : World, ∀ named ∈ handles, ∀ cell ∈ named.cell,
      cell < world.lazies.size → (state.mark world.unmarked).lazies.getD cell false = true := by
    intro world named hnamed cell hcell hlt
    obtain ⟨name, hname⟩ := hnames named hnamed
    exact Session.State.mark_handle hname hcell (by simpa [World.unmarked] using hlt)
  have hjournal := fun {past} {world : World} (h : History id injector handles past world) =>
    History.other h (World.frame_aside.journal world .empty)
  unfold Session.State.tidy
  cases state.loosened with
  | false => exact ⟨0, by simpa using hjournal h⟩
  | true =>
    obtain ⟨drops, hcollect⟩ := h.collect hroots
    exact ⟨drops, hjournal hcollect⟩

theorem History.ask_of {world' : World} {depth : Nat} {outcome : Except Stop Instance}
    (h : History id injector handles past world) (hn : handles[n]? = some named)
    (hrun : (named.ask depth).run.run world = (outcome, world')) :
    History id injector handles (past ++ [.asked n outcome]) world' := by
  have hask := h.ask hn depth
  rw [hrun] at hask
  exact hask

/-- At every moment, whatever was asked and released before, a plain handle resolves its key or
    reports that its injector is gone, and a lazy one gives the first instance that it gave, or does
    the same as long as there is none. -/
theorem History.handle_answers (h : History id injector handles past world)
    (hn : handles[n]? = some named) : Answers id injector past world n named :=
  h.sound.answers hn

end

/-! ## A factory that fails, errs, and then succeeds -/

namespace Unsteady

def key : Key := .plain "Service"

/-- The first call fails, the second one gives an instance of another type. -/
def recipe : Nat → Recipe Instance
  | 1 => .fail .reentrantSingleton
  | 2 => .done (.flag true)
  | _ => .serial fun serial => .done (.object "Service" "service" serial [])

def bindings : Bindings := .ofPairs [(key, .factory 0 recipe)]

def injector : Injector := ⟨⟨bindings, none⟩, .registry bindings none, none, [], []⟩

/-- The world after a number of calls of the factory, with what is in the cell of the lazy
    handle. -/
def world (calls serial : Nat) (value : Option Instance) : World :=
  ⟨#[.live injector], #[], #[value], #[calls], serial, .empty⟩

def lazy : NamedHandle := ⟨⟨0, key, "Service"⟩, some 0⟩

def plain : NamedHandle := ⟨⟨0, key, "Service"⟩, none⟩

/-- Nothing is held any more but the cell of the lazy handle. -/
def marks : Marks := ⟨#[], #[], #[true], #[]⟩

def service (serial : Nat) : Instance := .object "Service" "service" serial []

def past : List Occurrence :=
  [.asked 0 (.error (.fault .reentrantSingleton)),
    .asked 0 (.error (.fault (.wrongType key "Service"))), .asked 0 (.ok (service 1)),
    .asked 1 (.ok (service 2)), .dropped]

/-- The lazy handle is asked three times and the plain one once, then the injector is released. -/
theorem history :
    History 0 injector [lazy, plain] past ((world 4 2 (some (service 1))).release marks) := by
  have hstart : History 0 injector [lazy, plain] [] (world 0 0 none) := by
    refine .handle (.handle (.start rfl) lazy rfl ?_) plain rfl nofun
    rintro _ ⟨⟩
    exact ⟨rfl, nofun⟩
  have hfails := hstart.ask_of (n := 0) rfl (show (lazy.ask 2).run.run _ =
    (.error (.fault .reentrantSingleton), world 1 0 none) from rfl)
  have herrs := hfails.ask_of (n := 0) rfl (show (lazy.ask 2).run.run _ =
    (.error (.fault (.wrongType key "Service")), world 2 0 none) from rfl)
  have hgives := herrs.ask_of (n := 0) rfl (show (lazy.ask 2).run.run _ =
    (.ok (service 1), world 3 1 (some (service 1))) from rfl)
  have hplain := hgives.ask_of (n := 1) rfl (show (plain.ask 2).run.run _ =
    (.ok (service 2), world 4 2 (some (service 1))) from rfl)
  exact hplain.drop marks (by simp [lazy, plain, marks]) rfl

/-- After the release the lazy handle still has its instance, and the plain one reports the
    loss. -/
theorem lazy_answers :
    History 0 injector [lazy, plain] past ((world 4 2 (some (service 1))).release marks) ∧
      Answers 0 injector past ((world 4 2 (some (service 1))).release marks) 0 lazy ∧
        ∀ depth, ((lazy.ask depth).run.run ((world 4 2 (some (service 1))).release marks)).1 =
            .ok (service 1) ∧
          ((plain.ask depth).run.run ((world 4 2 (some (service 1))).release marks)).1 =
            .error (.fault (.injectorGone key)) := by
  have hlazy := history.handle_answers (n := 0) rfl
  have hplain := history.handle_answers (n := 1) rfl
  refine ⟨history, hlazy, fun depth => ⟨?_, ?_⟩⟩
  · rw [hlazy.lazy_kept 0 rfl (service 1) rfl depth]
  · rw [hplain.plain_gone rfl (by simp [past]) depth]
    rfl

end Unsteady

end Injection
