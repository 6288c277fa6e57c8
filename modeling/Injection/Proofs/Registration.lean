/-
  Registrations, and lookups along a chain of registries.

  A registry that is built asks its parent whether a registration hides one of
  the parent's providers, and writes down that it does.  Whether the
  registration succeeds is its own affair.

  * `Registry.Built`: the registries that registrations make, refused ones
    included;
  * `Registry.Built.register_run`: how a registration ends, whatever the parent
    answers;
  * `Registry.Chain.registers_and_finds`: along a chain of registries, a
    registration is refused exactly if the registry itself holds the key, it
    changes the answers for its own key only, and the nearest one is found.
-/
import Injection.Proofs.Searching

namespace Injection

theorem Lookup.attempt_gives {α : Type} (lookup : Lookup α) (journal : Journal) :
    Gives (attempt lookup) journal (lookup.run.run journal).1 (lookup.run.run journal).2 :=
  rfl

namespace Registry

/-! ## What a registry holds -/

/-- Whether a registry itself has a provider for a key, its parent left aside. -/
def Holds (registry : Registry) (key : Key) : Prop :=
  ∃ held ∈ registry.bindings.keys, (held == key) = true

/-- The provider that a registry itself has for a key. -/
def held? (registry : Registry) (key : Key) : Option Provider :=
  (registry.bindings.toList.find? fun pair => pair.1 == key).map Prod.snd

variable {registry : Registry} {parent top : Option Resolver} {ancestors : List Registry}
  {key other : Key} {provider : Provider}

/-- A provider that is held, or else what the resolver that is asked next answers, if there is
    one. -/
def answered (held : Option Provider) (next : Option Resolver) (key : Key) :
    Lookup (Option Provider) :=
  match held, next with
  | some provider, _ => pure (some provider)
  | none, some next => next.find key
  | none, none => pure none

theorem held?_eq_none_iff : registry.held? key = none ↔ ¬ registry.Holds key := by
  simp only [held?, Holds, Option.map_eq_none_iff, List.find?_eq_none, SlotTable.mem_keys]
  constructor
  · rintro h ⟨held, ⟨provider, hmem⟩, hkey⟩
    exact h (held, provider) hmem hkey
  · exact fun h pair hmem hkey => h ⟨pair.1, ⟨pair.2, hmem⟩, hkey⟩

/-- What a registration leaves of the registry, whether it succeeds or not. -/
def registered (registry : Registry) (key : Key) (provider : Provider) : Registry :=
  { registry with bindings := registry.bindings.insertNew key provider }

/-- The registries that ask `parent` for what they do not hold, after any number of registrations
    that succeeded or were refused. -/
inductive Built (parent : Option Resolver) : Registry → Prop where
  | empty : Built parent (.empty parent)
  | register {registry : Registry} (h : Built parent registry) (key : Key) (provider : Provider) :
    Built parent (registry.registered key provider)

namespace Built

theorem wf (h : registry.Built parent) : registry.bindings.WellFormed := by
  induction h with
  | empty => exact .empty
  | register h key provider ih => exact ih.insertNew key provider

theorem parent_eq (h : registry.Built parent) : registry.parent = parent := by
  induction h with
  | empty => rfl
  | register h key provider ih => exact ih

theorem get?_eq (h : registry.Built parent) (key : Key) :
    registry.bindings.get? key = registry.held? key :=
  h.wf.get?_eq_find? key

theorem contains_iff (h : registry.Built parent) :
    registry.bindings.contains key = true ↔ registry.Holds key :=
  h.wf.contains_iff

theorem contains_eq_false_iff (h : registry.Built parent) :
    registry.bindings.contains key = false ↔ ¬ registry.Holds key := by
  rw [← h.contains_iff, Bool.not_eq_true]

/-- A registry finds what it holds itself, and what its parent finds for any other key. -/
theorem find_eq (h : registry.Built parent) (key : Key) :
    registry.resolver.find key = answered (registry.held? key) parent key := by
  rw [resolver, h.parent_eq, ← h.get?_eq]
  cases parent with
  | none => rw [Resolver.find]; cases registry.bindings.get? key <;> rfl
  | some parent => rw [Resolver.find]; cases registry.bindings.get? key <;> rfl

end Built

/-! ## One registration -/

/-- The parent is asked for its answer, but no answer of it stops a registration. -/
theorem noteShadowing_gives (registry : Registry) (key : Key) (journal : Journal) :
    ∃ after, Gives (registry.noteShadowing key) journal ⟨⟩ after := by
  unfold noteShadowing
  cases registry.parent with
  | none => exact ⟨journal, rfl⟩
  | some parent =>
    have hattempt := Lookup.attempt_gives (parent.find key) journal
    match houtcome : ((parent.find key).run.run journal).1 with
    | .ok (some hidden) => rw [houtcome] at hattempt; exact ⟨_, hattempt.bind rfl⟩
    | .ok none => rw [houtcome] at hattempt; exact ⟨_, hattempt.bind rfl⟩
    | .error fault => rw [houtcome] at hattempt; exact ⟨_, hattempt.bind rfl⟩

/-- A registration is refused if the registry itself holds the key, and succeeds otherwise. -/
theorem Built.register_run (h : registry.Built parent) (key : Key) (provider : Provider)
    (journal : Journal) [Decidable (registry.Holds key)] :
    ((registry.register key provider).run.run journal).1 =
      if registry.Holds key then .error (.alreadyRegistered key)
      else .ok (registry.registered key provider) := by
  obtain ⟨after, hnote⟩ := registry.noteShadowing_gives key journal
  rw [Registry.register, hnote.bind_run, h.wf.insert_eq]
  by_cases hholds : registry.Holds key
  · rw [if_pos (h.contains_iff.2 hholds), if_pos hholds]
    rfl
  · have hnew : ¬ registry.bindings.contains key = true := mt h.contains_iff.1 hholds
    rw [if_neg hnew, if_neg hholds, registered, SlotTable.insertNew, h.wf.insert_eq, if_neg hnew]
    rfl

/-- What a registration of a provider for a key does, whatever the registry's parent answers. -/
structure Registers (registry : Registry) (key : Key) (provider : Provider) : Prop where
  refused_iff : ∀ journal, ((registry.register key provider).run.run journal).1 =
    .error (.alreadyRegistered key) ↔ registry.Holds key
  accepted_iff : ∀ journal, ((registry.register key provider).run.run journal).1 =
    .ok (registry.registered key provider) ↔ ¬ registry.Holds key
  /-- A registry that refuses a registration is left as it was. -/
  unchanged : registry.Holds key → registry.registered key provider = registry
  keys_eq : ¬ registry.Holds key →
    (registry.registered key provider).bindings.keys = registry.bindings.keys ++ [key]
  size_eq : ¬ registry.Holds key →
    (registry.registered key provider).bindings.size = registry.bindings.size + 1
  parent_eq : (registry.registered key provider).parent = registry.parent
  found : ¬ registry.Holds key → ∀ equal, (key == equal) = true →
    (registry.registered key provider).resolver.find equal = pure (some provider)
  others : ∀ other, (key == other) = false →
    (registry.registered key provider).resolver.find other = registry.resolver.find other

theorem Built.held?_registered (h : registry.Built parent) (hnew : ¬ registry.Holds key)
    (other : Key) :
    (registry.registered key provider).held? other =
      if key == other then some provider else registry.held? other := by
  have hafter := h.register key provider
  rw [← hafter.get?_eq, ← h.get?_eq, registered,
    h.wf.get?_insertNew (h.contains_eq_false_iff.2 hnew)]

theorem Built.registered_of_holds (h : registry.Built parent) (hholds : registry.Holds key) :
    registry.registered key provider = registry := by
  rw [registered, h.wf.insertNew_of_contains (h.contains_iff.2 hholds)]

theorem Built.toList_registered (h : registry.Built parent) (hnew : ¬ registry.Holds key) :
    (registry.registered key provider).bindings.toList =
      registry.bindings.toList ++ [(key, provider)] :=
  h.wf.toList_insertNew (h.contains_eq_false_iff.2 hnew) provider

theorem Built.registers (h : registry.Built parent) (key : Key) (provider : Provider) :
    registry.Registers key provider := by
  classical
  have hafter := h.register key provider
  constructor
  case refused_iff =>
    intro journal
    rw [h.register_run]
    split <;> simp_all
  case accepted_iff =>
    intro journal
    rw [h.register_run]
    split <;> simp_all
  case unchanged => exact h.registered_of_holds
  case keys_eq =>
    intro hnew
    simp [SlotTable.keys_eq_map, h.toList_registered hnew]
  case size_eq =>
    intro hnew
    simp [h.toList_registered hnew]
  case parent_eq => rfl
  case found =>
    intro hnew equal hequal
    rw [hafter.find_eq, h.held?_registered hnew, if_pos hequal]
    rfl
  case others =>
    intro other hother
    by_cases hholds : registry.Holds key
    · rw [h.registered_of_holds hholds]
    · rw [hafter.find_eq, h.find_eq, h.held?_registered hholds, if_neg (by simp [hother])]

/-! ## Chains of registries -/

/-- Registries, the nearest one first.  Each asks the next one for what it does not hold, and the
    last one asks `top`.  A registry is built when its parent is, and the parent stays as it is. -/
inductive Chain (top : Option Resolver) : List Registry → Prop where
  | root {registry : Registry} (h : registry.Built top) : Chain top [registry]
  | child {registry parent : Registry} {ancestors : List Registry}
    (h : Chain top (parent :: ancestors)) (hbuilt : registry.Built (some parent.resolver)) :
    Chain top (registry :: parent :: ancestors)

/-- What a registry asks for the keys that it does not hold. -/
def fallback (top : Option Resolver) : List Registry → Option Resolver
  | [] => top
  | parent :: _ => some parent.resolver

namespace Chain

theorem built (h : Chain top (registry :: ancestors)) :
    registry.Built (fallback top ancestors) := by
  cases h with
  | root h => exact h
  | child h hbuilt => exact hbuilt

/-- Along a chain the nearest registration is found, and behind the chain what `top` finds. -/
theorem find_eq (h : Chain top (registry :: ancestors)) (key : Key) :
    registry.resolver.find key =
      answered ((registry :: ancestors).findSome? (·.held? key)) top key := by
  induction ancestors generalizing registry with
  | nil =>
    rw [h.built.find_eq, List.findSome?_cons, List.findSome?_nil]
    cases registry.held? key <;> rfl
  | cons parent ancestors ih =>
    rw [h.built.find_eq, List.findSome?_cons]
    cases h with
    | child hparent hbuilt =>
      cases registry.held? key with
      | some provider => rfl
      | none => exact ih hparent

theorem findSome?_eq_none_iff :
    ancestors.findSome? (·.held? key) = none ↔ ∀ registry ∈ ancestors, ¬ registry.Holds key := by
  simp only [List.findSome?_eq_none_iff, held?_eq_none_iff]

/-- A demand for a key that some registry of the chain holds does not fail. -/
theorem not_holds (h : Chain top (registry :: ancestors)) {journal : Journal} {fault : Fault}
    (hfault : ((registry.resolver.getProvider key).run.run journal).1 = .error fault) :
    ∀ other ∈ registry :: ancestors, ¬ other.Holds key := by
  rw [← findSome?_eq_none_iff, Option.eq_none_iff_forall_ne_some]
  intro provider hprovider
  have hfind : (registry.resolver.find key).Yields (.ok (some provider)) := by
    rw [h.find_eq, hprovider]
    exact .pure _
  cases ((Lookup.required_yields hfind) journal).symm.trans hfault

/-- Without a resolver behind the chain, a demand fails exactly if no registry holds the key, and
    the fault says that it is not provided. -/
theorem getProvider_eq_error_iff (h : Chain none (registry :: ancestors)) {journal : Journal}
    {fault : Fault} :
    ((registry.resolver.getProvider key).run.run journal).1 = .error fault ↔
      fault = .notProvided key ∧ ∀ other ∈ registry :: ancestors, ¬ other.Holds key := by
  have hfind : (registry.resolver.find key).Yields
      (.ok ((registry :: ancestors).findSome? (·.held? key))) := by
    rw [h.find_eq]
    cases (registry :: ancestors).findSome? (·.held? key) <;> exact .pure _
  have houtcome := Lookup.required_yields hfind journal
  constructor
  · intro hfault
    have hnone := h.not_holds hfault
    rw [findSome?_eq_none_iff.2 hnone] at houtcome
    exact ⟨(Except.error.inj (houtcome.symm.trans hfault)).symm, hnone⟩
  · rintro ⟨rfl, hnone⟩
    rw [findSome?_eq_none_iff.2 hnone] at houtcome
    exact houtcome

end Chain

/-- What registrations at the nearest registry of a chain do, and what lookups through it give. -/
structure Answers (top : Option Resolver) (registry : Registry) (ancestors : List Registry) :
    Prop where
  registers : ∀ key provider, registry.Registers key provider
  /-- The registry's own provider comes first, and then all that its parent answers. -/
  finds : ∀ key, registry.resolver.find key =
    answered (registry.held? key) (fallback top ancestors) key
  /-- The nearest registration wins. -/
  nearest : ∀ key, registry.resolver.find key =
    answered ((registry :: ancestors).findSome? (·.held? key)) top key
  missing : ∀ key journal,
    ((registry.resolver.getProvider key).run.run journal).1 = .error (.notProvided key) →
      ∀ other ∈ registry :: ancestors, ¬ other.Holds key
  fails_iff : top = none → ∀ key journal fault,
    ((registry.resolver.getProvider key).run.run journal).1 = .error fault ↔
      fault = .notProvided key ∧ ∀ other ∈ registry :: ancestors, ¬ other.Holds key

/-- However many registries stand in a chain, and whatever stands behind it, only what a registry
    holds itself decides on a registration, and the nearest registration is what is found. -/
theorem Chain.registers_and_finds (h : Chain top (registry :: ancestors)) :
    Answers top registry ancestors where
  registers := h.built.registers
  finds := h.built.find_eq
  nearest := h.find_eq
  missing _ _ := h.not_holds
  fails_iff htop _ _ _ := by
    subst htop
    exact h.getProvider_eq_error_iff

end Registry

/-! ## A child, its parent, and an injector that fails -/

namespace Shadows

/-- An injector whose only interceptor fails for the key A. -/
def guarded : Resolver :=
  .injector 0 [⟨"Guarding", .fail (.plain "A") .reentrantSingleton⟩]
    ((Registry.empty none).registered (.plain "C") (.text "root")).resolver

def parent : Registry :=
  ((Registry.empty (some guarded)).registered (.plain "A") (.text "parent")).registered (.plain "B")
    (.text "parent")

/-- The second registration for A is refused. -/
def child : Registry :=
  ((Registry.empty (some parent.resolver)).registered (.plain "A") (.text "child")).registered
    (.plain "A") (.text "again")

theorem chain : Registry.Chain (some guarded) [child, parent] :=
  .child (.root ((Registry.Built.empty.register _ _).register _ _))
    ((Registry.Built.empty.register _ _).register _ _)

theorem child_answers :
    Registry.Chain (some guarded) [child, parent] ∧
      Registry.Answers (some guarded) child [parent] ∧
        ["A", "B", "C"].map (fun name => child.resolver.find (.plain name)) =
          [pure (some (.text "child")), pure (some (.text "parent")),
            guarded.find (.plain "C")] :=
  ⟨chain, chain.registers_and_finds, by
    simp only [List.map_cons, List.map_nil, chain.registers_and_finds.nearest]
    rfl⟩

end Shadows

end Injection
