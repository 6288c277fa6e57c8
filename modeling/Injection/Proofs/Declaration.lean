/-
  When declarations can be wired together, said without any graph.

  * `TypeExpr.Mentions`: the types that stand inside a type, at any depth;
  * `Key.Defers`: the keys that ask for another key later;
  * `Supplied` and `Demands`: what a list of modules provides, and which of its
    keys need which others for their construction;
  * `WellDeclared`: everything that has to hold of modules and targets.
-/
import Injection.Declaration
import Mathlib.Logic.Relation

namespace Injection

open Relation

/-! ## Types inside types -/

namespace TypeExpr

/-- The type itself, and the types of which it is made, at any depth. -/
inductive Mentions : TypeExpr → TypeExpr → Prop
  | self {t} : Mentions t t
  | owner {o raw args t} : Mentions o t → Mentions (.applied (some o) raw args) t
  | raw {o raw args t} : Mentions raw t → Mentions (.applied o raw args) t
  | arg {o raw args a t} : a ∈ args → Mentions a t → Mentions (.applied o raw args) t
  | element {e t} : Mentions e t → Mentions (.array e) t
  | upper {upper lower b t} : b ∈ upper → Mentions b t → Mentions (.wildcard upper lower) t
  | lower {upper lower b t} : b ∈ lower → Mentions b t → Mentions (.wildcard upper lower) t

/-- Wildcards and type variables. -/
def IsOpen : TypeExpr → Prop
  | .wildcard _ _ | .var _ => True
  | .plain _ | .applied _ _ _ | .array _ => False

mutual

/-- A type is concrete if it mentions no wildcard and no type variable, and only then. -/
theorem isConcrete_iff : ∀ t : TypeExpr, t.isConcrete = true ↔ ∀ s, t.Mentions s → ¬ s.IsOpen
  | .plain name => by
    refine iff_of_true rfl fun s hs => ?_
    cases hs
    exact id
  | .applied none raw args => by
    rw [isConcrete, Bool.and_eq_true, isConcrete_iff raw, allConcrete_iff args]
    constructor
    · rintro ⟨hraw, hargs⟩ s hs
      cases hs with
      | self => exact id
      | raw hs => exact hraw s hs
      | arg ha hs => exact hargs _ ha s hs
    · exact fun h => ⟨fun s hs => h s (.raw hs), fun a ha s hs => h s (.arg ha hs)⟩
  | .applied (some owner) raw args => by
    rw [isConcrete, Bool.and_eq_true, Bool.and_eq_true, isConcrete_iff owner, isConcrete_iff raw,
      allConcrete_iff args]
    constructor
    · rintro ⟨⟨howner, hraw⟩, hargs⟩ s hs
      cases hs with
      | self => exact id
      | owner hs => exact howner s hs
      | raw hs => exact hraw s hs
      | arg ha hs => exact hargs _ ha s hs
    · exact fun h => ⟨⟨fun s hs => h s (.owner hs), fun s hs => h s (.raw hs)⟩,
        fun a ha s hs => h s (.arg ha hs)⟩
  | .array element => by
    rw [isConcrete, isConcrete_iff element]
    constructor
    · intro helement s hs
      cases hs with
      | self => exact id
      | element hs => exact helement s hs
    · exact fun h s hs => h s (.element hs)
  | .wildcard upper lower => by
    refine iff_of_false (by simp [isConcrete]) fun h => ?_
    exact h _ .self trivial
  | .var name => by
    refine iff_of_false (by simp [isConcrete]) fun h => ?_
    exact h _ .self trivial

/-- All types of a list are concrete if none of them mentions a wildcard or a type variable. -/
theorem allConcrete_iff : ∀ ts : List TypeExpr,
    allConcrete ts = true ↔ ∀ t ∈ ts, ∀ s, t.Mentions s → ¬ s.IsOpen
  | [] => by simp [allConcrete]
  | t :: ts => by
    rw [allConcrete, Bool.and_eq_true, isConcrete_iff t, allConcrete_iff ts, List.forall_mem_cons]

end

/-- Whether a type mentions a wildcard or a type variable anywhere. -/
def MentionsOpen (t : TypeExpr) : Prop := ∃ s, t.Mentions s ∧ s.IsOpen

theorem isConcrete_eq_false_iff {t : TypeExpr} : t.isConcrete = false ↔ t.MentionsOpen := by
  rw [← Bool.not_eq_true, isConcrete_iff]
  simp [MentionsOpen]

instance (t : TypeExpr) : Decidable t.MentionsOpen :=
  decidable_of_iff (t.isConcrete = false) isConcrete_eq_false_iff

end TypeExpr

/-! ## Deferred keys -/

theorem TypeExpr.deferredTarget?_eq_some_iff {t target : TypeExpr} :
    t.deferredTarget? = some target ↔ t = providerOf target ∨ t = lazyOf target := by
  constructor
  · intro h
    unfold deferredTarget? at h
    split at h
    · next name type =>
      split at h
      · next hname =>
        obtain rfl := Option.some.inj h
        rw [Bool.or_eq_true, decide_eq_true_iff, decide_eq_true_iff] at hname
        rcases hname with rfl | rfl
        · exact .inl rfl
        · exact .inr rfl
      · cases h
    · cases h
  · rintro (rfl | rfl) <;> rfl

namespace Key

/-- The keys of `Provider<T>` and `Lazy<T>` defer that of `T` with the same qualifier. -/
inductive Defers : Key → Key → Prop
  | provider (target : Key) : Defers { target with type := .providerOf target.type } target
  | lazy (target : Key) : Defers { target with type := .lazyOf target.type } target

theorem deferredTarget?_eq_some_iff {key target : Key} :
    key.deferredTarget? = some target ↔ key.Defers target := by
  constructor
  · intro h
    obtain ⟨type, qualifier, hordered⟩ := key
    obtain ⟨argument, hargument, rfl⟩ := Option.map_eq_some_iff.1 h
    rcases TypeExpr.deferredTarget?_eq_some_iff.1 hargument with rfl | rfl
    · exact .provider ⟨argument, qualifier, hordered⟩
    · exact .lazy ⟨argument, qualifier, hordered⟩
  · intro h
    cases h with
    | provider target => rfl
    | lazy target => rfl

theorem deferredTarget?_eq_none_iff {key : Key} :
    key.deferredTarget? = none ↔ ∀ target, ¬ key.Defers target := by
  simp only [Option.eq_none_iff_forall_ne_some, ne_eq, deferredTarget?_eq_some_iff]

end Key

/-! ## Modules -/

/-- The providers of all modules, in the order of their declarations. -/
def declared (modules : List ModuleDecl) : List ProviderDecl := modules.flatMap ModuleDecl.providers

/-- Whether a key is that of a provider or of the injector. -/
def Supplied (modules : List ModuleDecl) (key : Key) : Prop :=
  (∃ p ∈ declared modules, (p.key == key) = true) ∨ (key == .injector) = true

/-- To make the instance of `a` takes that of `b`: `b` is a dependency of the provider of `a`, and
    not a deferred one. -/
def Demands (modules : List ModuleDecl) (a b : Key) : Prop :=
  ∃ p ∈ declared modules, (p.key == a) = true ∧
    ∃ d ∈ p.dependencies, d.deferredTarget? = none ∧ (d == b) = true

/-- What has to hold of modules and injection targets for them to be wired together. -/
structure WellDeclared (modules : List ModuleDecl) (targets : List TargetDecl) : Prop where
  /-- No two providers have equal keys. -/
  distinct : (declared modules).Pairwise fun p q => (p.key == q.key) = false
  /-- No provider has the key of the injector. -/
  not_injector : ∀ p ∈ declared modules, (p.key == .injector) = false
  /-- The type of a provider's key mentions no wildcard and no type variable. -/
  concrete : ∀ p ∈ declared modules, ∀ t, p.key.type.Mentions t → ¬ t.IsOpen
  /-- What a dependency stands for is supplied. -/
  supplied : ∀ p ∈ declared modules, ∀ d ∈ p.dependencies, Supplied modules d.required
  /-- No provider needs itself, at any remove, for its own construction. -/
  acyclic : ∀ key, ¬ TransGen (Demands modules) key key
  /-- What a target needs is supplied. -/
  targets : ∀ target ∈ targets, ∀ r ∈ target.requirements, Supplied modules r.2.required

end Injection
