/-
  Searching for a provider and demanding one come to the same.

  An injector without interceptors leaves a search to its resolver; one with
  interceptors sends it through their chain, and takes one fault of the chain
  for a miss.  A demand always goes through the chain.

  * `Lookup.Yields`: how a lookup ends, whatever is in the journal;
  * `Lookup.chain_yields`, `Resolver.find_yields`: of the interceptors that
    substitute providers or answer with nothing, the first one that has to do
    with a key decides on it;
  * `Injector.Lineage.search_agrees`: a hit is a hit, a miss is the fault that
    the key is not provided, and an answer with nothing is never a miss.
-/
import Injection.Proofs.Overriding

namespace Injection

/-! ## Outcomes of lookups -/

/-- Whatever is in the journal, a lookup ends with an outcome. -/
def Lookup.Yields {α : Type} (lookup : Lookup α) (outcome : Except Fault α) : Prop :=
  ∀ journal, (lookup.run.run journal).1 = outcome

namespace Lookup.Yields

variable {α β : Type} {lookup : Lookup α} {f : α → Lookup β} {a : α} {fault : Fault}
  {outcome : Except Fault α}

theorem pure (a : α) : Yields (pure a) (.ok a) := fun _ => rfl

theorem throw (fault : Fault) : Yields (throw fault : Lookup α) (.error fault) := fun _ => rfl

theorem bind {outcome : Except Fault β} (h : lookup.Yields (.ok a))
    (hf : (f a).Yields outcome) : (lookup >>= f).Yields outcome := by
  intro journal
  have hfirst := h journal
  rw [ExceptT.run_bind, StateT.run_bind]
  rcases hrun : lookup.run.run journal with ⟨first, between⟩
  rw [hrun] at hfirst
  obtain rfl : first = .ok a := hfirst
  exact hf between

theorem bind_throw (h : lookup.Yields (.error fault)) : (lookup >>= f).Yields (.error fault) := by
  intro journal
  have hfirst := h journal
  rw [ExceptT.run_bind, StateT.run_bind]
  rcases hrun : lookup.run.run journal with ⟨first, between⟩
  rw [hrun] at hfirst
  obtain rfl : first = .error fault := hfirst
  rfl

theorem attempt (h : lookup.Yields outcome) : (Lookup.attempt lookup).Yields (.ok outcome) :=
  fun journal => congrArg Except.ok (h journal)

theorem map {g : α → β} (h : lookup.Yields outcome) :
    (g <$> lookup).Yields (outcome.map g) := by
  rw [map_eq_pure_bind]
  cases outcome with
  | ok a => exact bind h (pure (g a))
  | error fault => exact bind_throw h

end Lookup.Yields

theorem Lookup.note_yields (line : String) : (Lookup.note line).Yields (.ok ⟨⟩) := fun _ => rfl

theorem Lookup.report_yields (event : Event) : (Lookup.report event).Yields (.ok ⟨⟩) :=
  fun _ => rfl

/-! ## Interceptors that decide -/

namespace LookupRule

/-- Rules that hand every key on as it is, substitute providers, or answer with nothing. -/
def Simple : LookupRule → Prop
  | .record _ | .substitute _ | .silence _ => True
  | .fail _ _ | .redirect _ _ | .bypass _ | .replace _ _ => False

/-- What a rule of these answers by itself, which may be nothing, unless it hands the key on. -/
def own? (rule : LookupRule) (key : Key) : Option (Option Provider) :=
  match rule with
  | .substitute providers => (providers.get? key).map some
  | .silence only => if only.all (key == ·) then some none else none
  | _ => none

/-- A rule gives its own answer, or what comes of handing the key on. -/
theorem answer_yields {rule : LookupRule} (hsimple : rule.Simple) {key : Key}
    {proceed : Key → Lookup Provider} {search : Key → Lookup (Option Provider)}
    {outcome : Except Fault Provider} (h : (proceed key).Yields outcome) :
    (rule.answer proceed search key).Yields ((rule.own? key).elim (outcome.map some) .ok) := by
  cases rule with
  | record tag => exact (Lookup.note_yields _).bind h.map
  | substitute providers =>
    simp only [answer, own?]
    cases providers.get? key with
    | some provider => exact .pure (some provider)
    | none => exact h.map
  | silence only =>
    cases only with
    | none => exact .pure none
    | some only =>
      simp only [answer, own?, Option.all_some]
      split
      · exact .pure none
      · exact h.map
  | fail | redirect | bypass | replace => exact hsimple.elim

end LookupRule

namespace ProviderInterceptor

/-- An interceptor that hands every key on, and gives what comes of it. -/
def passes (interceptor : ProviderInterceptor) : Bool :=
  match interceptor.rule with
  | .record _ => true
  | _ => false

/-- An interceptor has a substitute for a key. -/
def Overrides (interceptor : ProviderInterceptor) (key : Key) : Prop :=
  match interceptor.rule with
  | .substitute providers => ∃ provider, providers.get? key = some provider
  | _ => False

/-- An interceptor answers a key with nothing. -/
def Silences (interceptor : ProviderInterceptor) (key : Key) : Prop :=
  match interceptor.rule with
  | .silence none => True
  | .silence (some only) => (key == only) = true
  | _ => False

/-- How a demand ends at an interceptor, unless it hands the key on. -/
def decides? (interceptor : ProviderInterceptor) (key : Key) : Option (Except Fault Provider) :=
  (interceptor.rule.own? key).map fun answer =>
    answer.elim (.error (.noResult interceptor.name)) .ok

variable {interceptor : ProviderInterceptor} {key : Key}

theorem decides?_of_passes (h : interceptor.passes = true) : interceptor.decides? key = none := by
  obtain ⟨name, rule⟩ := interceptor
  cases rule with
  | record tag => rfl
  | substitute | silence | fail | redirect | bypass | replace => cases h

theorem decides?_eq_none_iff :
    interceptor.decides? key = none ↔
      ¬ interceptor.Silences key ∧ ¬ interceptor.Overrides key := by
  obtain ⟨name, rule⟩ := interceptor
  unfold decides? Silences Overrides LookupRule.own?
  cases rule with
  | substitute providers => simp [Option.eq_none_iff_forall_ne_some]
  | silence only => cases only <;> simp
  | record | fail | redirect | bypass | replace => simp

/-- An interceptor fails for the keys that it answers with nothing, and names itself. -/
theorem decides?_eq_error_iff {fault : Fault} :
    interceptor.decides? key = some (.error fault) ↔
      interceptor.Silences key ∧ .noResult interceptor.name = fault := by
  obtain ⟨name, rule⟩ := interceptor
  unfold decides? Silences LookupRule.own?
  cases rule with
  | substitute providers => simp
  | silence only => cases only <;> simp
  | record | fail | redirect | bypass | replace => simp

theorem simple_of_passes (h : interceptor.passes = true) : interceptor.rule.Simple := by
  obtain ⟨name, rule⟩ := interceptor
  cases rule with
  | record tag => trivial
  | substitute | silence | fail | redirect | bypass | replace => cases h

/-- Adding and taking away interceptors that only hand keys on leaves rules simple. -/
theorem simple_of_filter_eq {interceptors interceptors' : List ProviderInterceptor}
    (h : interceptors'.filter (!·.passes) = interceptors.filter (!·.passes))
    (hsimple : ∀ interceptor ∈ interceptors, interceptor.rule.Simple) :
    ∀ interceptor ∈ interceptors', interceptor.rule.Simple := by
  intro interceptor hmem
  cases hpasses : interceptor.passes with
  | true => exact simple_of_passes hpasses
  | false =>
    have hkept : interceptor ∈ interceptors'.filter (!·.passes) :=
      List.mem_filter.2 ⟨hmem, by simp [hpasses]⟩
    rw [h] at hkept
    exact hsimple interceptor (List.mem_filter.1 hkept).1

end ProviderInterceptor

/-- Of the interceptors that answer a key with nothing the first one has a name, and none before it
    overrides the key. -/
def Silenced (interceptors : List ProviderInterceptor) (key : Key) (name : String) : Prop :=
  ∃ before silent after, interceptors = before ++ silent :: after ∧
    silent.Silences key ∧ silent.name = name ∧
    ∀ other ∈ before, ¬ other.Silences key ∧ ¬ other.Overrides key

/-- What a list of interceptors decides on a key: what the first one does that decides. -/
def decision? (interceptors : List ProviderInterceptor) (key : Key) :
    Option (Except Fault Provider) :=
  interceptors.findSome? (·.decides? key)

theorem decision?_eq_error_iff {interceptors : List ProviderInterceptor} {key : Key}
    {fault : Fault} :
    decision? interceptors key = some (.error fault) ↔
      ∃ name, Silenced interceptors key name ∧ fault = .noResult name := by
  simp only [decision?, List.findSome?_eq_some_iff, ProviderInterceptor.decides?_eq_error_iff,
    ProviderInterceptor.decides?_eq_none_iff]
  constructor
  · rintro ⟨before, silent, after, hsplit, ⟨hsilent, rfl⟩, hbefore⟩
    exact ⟨_, ⟨before, silent, after, hsplit, hsilent, rfl, hbefore⟩, rfl⟩
  · rintro ⟨_, ⟨before, silent, after, hsplit, hsilent, rfl, hbefore⟩, rfl⟩
    exact ⟨before, silent, after, hsplit, ⟨hsilent, rfl⟩, hbefore⟩

/-- Interceptors that only hand keys on have no part in a decision. -/
theorem decision?_filter (interceptors : List ProviderInterceptor) (key : Key) :
    decision? (interceptors.filter (!·.passes)) key = decision? interceptors key := by
  unfold decision?
  induction interceptors with
  | nil => rfl
  | cons first rest ih =>
    rw [List.findSome?_cons]
    cases hpasses : first.passes with
    | true =>
      rw [List.filter_cons_of_neg (by simp [hpasses]), ih,
        ProviderInterceptor.decides?_of_passes hpasses]
    | false => rw [List.filter_cons_of_pos (by simp [hpasses]), List.findSome?_cons, ih]

/-! ## Chains -/

/-- How a demand ends: with the decision of the interceptors, or else with the provider that is
    held, if there is one. -/
def demanded (decision : Option (Except Fault Provider)) (held : Option Provider) (key : Key) :
    Except Fault Provider :=
  decision.getD (held.elim (.error (.notProvided key)) .ok)

/-- How a search ends, which may be with a miss. -/
def searched (decision : Option (Except Fault Provider)) (held : Option Provider) :
    Except Fault (Option Provider) :=
  decision.elim (.ok held) (Except.map some)

section

variable {search : Key → Lookup (Option Provider)} {key : Key} {held : Option Provider}
  {interceptors : List ProviderInterceptor}

theorem Lookup.required_yields (h : (search key).Yields (.ok held)) :
    (required search key).Yields (demanded none held key) := by
  cases held with
  | some provider => exact h.bind (.pure provider)
  | none => exact h.bind (.throw _)

/-- A demand ends with the decision of the first interceptor that decides, or else at the
    resolver. -/
theorem Lookup.chain_yields (h : (search key).Yields (.ok held))
    (hsimple : ∀ interceptor ∈ interceptors, interceptor.rule.Simple) :
    (chain search interceptors key).Yields (demanded (decision? interceptors key) held key) := by
  induction interceptors with
  | nil => exact required_yields h
  | cons first rest ih =>
    obtain ⟨hfirst, hrest⟩ := List.forall_mem_cons.1 hsimple
    have hanswer : (first.rule.answer (chain search rest) search key).Yields _ :=
      LookupRule.answer_yields hfirst (ih hrest)
    unfold decision? at hanswer ⊢
    rw [List.findSome?_cons, ProviderInterceptor.decides?]
    cases hown : first.rule.own? key with
    | some answer =>
      rw [hown] at hanswer
      cases answer with
      | some provider => exact hanswer.bind (.pure provider)
      | none => exact hanswer.bind (.throw _)
    | none =>
      rw [hown] at hanswer
      dsimp only [Option.map_none]
      cases hproceed : demanded (rest.findSome? (·.decides? key)) held key with
      | ok provider =>
        rw [hproceed] at hanswer
        exact hanswer.bind (.pure provider)
      | error fault =>
        rw [hproceed] at hanswer
        exact hanswer.bind_throw

/-- The outcome of a chain is that of a search, but for the fault that the key is not provided,
    which is a miss. -/
theorem Lookup.settle_yields {decision : Option (Except Fault Provider)} {lookup : Lookup Provider}
    (hdecision : ∀ fault, decision = some (.error fault) → ∃ name, fault = .noResult name)
    (h : lookup.Yields (demanded decision held key)) :
    (settle key lookup).Yields (searched decision held) := by
  unfold settle
  rcases decision with _ | (fault | provider)
  · cases held with
    | some provider => exact h.attempt.bind (.pure _)
    | none =>
      refine h.attempt.bind ?_
      show (if key == key then _ else _ : Lookup (Option Provider)).Yields _
      rw [if_pos BEq.rfl]
      exact .pure none
  · obtain ⟨name, rfl⟩ := hdecision fault rfl
    refine h.attempt.bind ?_
    exact (report_yields _).bind (.throw _)
  · exact h.attempt.bind (.pure _)

end

/-! ## Resolvers -/

namespace Resolver

variable {key : Key} {held : Option Provider} {found : Except Fault (Option Provider)}
  {id : InjectorId} {interceptors : List ProviderInterceptor} {inner : Resolver}

/-- Without interceptors nothing decides, and the search of an injector is that of its resolver;
    with interceptors it is their chain. -/
theorem find_yields (h : (inner.find key).Yields (.ok held))
    (hsimple : ∀ interceptor ∈ interceptors, interceptor.rule.Simple) :
    ((injector id interceptors inner).find key).Yields
      (searched (decision? interceptors key) held) := by
  cases interceptors with
  | nil => exact h
  | cons first others =>
    refine Lookup.settle_yields (fun fault hfault => ?_) (Lookup.chain_yields h hsimple)
    obtain ⟨name, -, hname⟩ := decision?_eq_error_iff.1 hfault
    exact ⟨name, hname⟩

/-- A registry leaves a key that it does not hold to the resolver it asks. -/
theorem find_registry_yields {bindings : Bindings} {parent : Resolver}
    (hmiss : bindings.get? key = none) (h : (parent.find key).Yields found) :
    ((registry bindings (some parent)).find key).Yields found := by
  rw [find, hmiss]
  exact h

end Resolver

/-! ## Searching and demanding -/

/-- A search for a key and a demand for it that end alike, behind a list of interceptors: a hit is a
    hit, and a miss is the fault that the key is not provided; if the key is answered with nothing,
    both fail, and nothing else makes them fail. -/
structure Agreement (interceptors : List ProviderInterceptor) (key : Key)
    (found : Except Fault (Option Provider)) (demanded : Except Fault Provider) : Prop where
  hit : ∀ provider, found = .ok (some provider) ↔ demanded = .ok provider
  miss : found = .ok none ↔ demanded = .error (.notProvided key)
  silenced : ∀ name, Silenced interceptors key name →
    found = .error (.noResult name) ∧ demanded = .error (.noResult name)
  other : (∀ provider, found ≠ .ok (some provider)) → found ≠ .ok none →
    ∃ name, Silenced interceptors key name

theorem Agreement.of_decision (interceptors : List ProviderInterceptor) (key : Key)
    (held : Option Provider) :
    Agreement interceptors key (searched (decision? interceptors key) held)
      (demanded (decision? interceptors key) held key) := by
  have hsilenced : ∀ name, Silenced interceptors key name →
      decision? interceptors key = some (.error (.noResult name)) :=
    fun name hname => decision?_eq_error_iff.2 ⟨name, hname, rfl⟩
  have hloud (hdecision : ∀ fault, decision? interceptors key ≠ some (.error fault))
      (name : String) : ¬ Silenced interceptors key name :=
    fun hname => hdecision _ (hsilenced name hname)
  rcases hdecision : decision? interceptors key with _ | (fault | provider)
  · -- what is held decides
    have hnone := hloud (by simp [hdecision])
    cases held with
    | some provider =>
      exact ⟨by simp [searched, demanded], by simp [searched, demanded],
        fun name hname => (hnone name hname).elim, fun hhit => (hhit provider rfl).elim⟩
    | none =>
      exact ⟨by simp [searched, demanded], by simp [searched, demanded],
        fun name hname => (hnone name hname).elim, fun _ hmiss => (hmiss rfl).elim⟩
  · obtain ⟨name, hname, rfl⟩ := decision?_eq_error_iff.1 hdecision
    refine ⟨by simp [searched, demanded, Except.map], by simp [searched, demanded, Except.map],
      fun other hother => ?_, fun _ _ => ⟨name, hname⟩⟩
    obtain rfl : name = other := by simpa using hdecision.symm.trans (hsilenced other hother)
    exact ⟨rfl, rfl⟩
  · have hnone := hloud (by simp [hdecision])
    exact ⟨by simp [searched, demanded, Except.map], by simp [searched, demanded, Except.map],
      fun name hname => (hnone name hname).elim, fun hhit => (hhit provider rfl).elim⟩

/-- What a search agrees with is the outcome of requiring that it finds something. -/
theorem Agreement.required_yields {interceptors : List ProviderInterceptor} {key : Key}
    {found : Except Fault (Option Provider)} {demanded : Except Fault Provider}
    (h : Agreement interceptors key found demanded) {search : Key → Lookup (Option Provider)}
    (hsearch : (search key).Yields found) : (Lookup.required search key).Yields demanded := by
  rcases found with fault | (_ | provider)
  · obtain ⟨name, hname⟩ := h.other (fun _ => nofun) nofun
    obtain ⟨hfound, hdemanded⟩ := h.silenced name hname
    rw [hfound] at hsearch
    rw [hdemanded]
    exact hsearch.bind_throw
  · rw [h.miss.1 rfl]
    exact hsearch.bind (.throw _)
  · rw [(h.hit provider).1 rfl]
    exact hsearch.bind (.pure provider)

namespace Injector

variable {overrides : List Bindings} {interceptors : List ProviderInterceptor}
  {nearest : InjectorId × Injector} {ancestors : List (InjectorId × Injector)}

/-- The outcomes of searching the last injector of a lineage and of demanding from it. -/
theorem Lineage.outcomes
    (h : Lineage (overrides.map .overriding) interceptors (nearest :: ancestors))
    (hsimple : ∀ interceptor ∈ interceptors, interceptor.rule.Simple) (key : Key) :
    let held := (overrides.findSome? (·.get? key)).or
      ((nearest :: ancestors).findSome? (·.2.registry.bindings.get? key))
    ((nearest.2.resolver nearest.1).find key).Yields
        (searched (decision? interceptors key) held) ∧
      ((nearest.2.resolver nearest.1).getProvider key).Yields
        (demanded (decision? interceptors key) held key) := by
  intro held
  have hinner : (nearest.2.inner.find key).Yields (.ok held) := by
    rw [h.find_inner]
    exact .pure held
  rw [Injector.resolver, h.madeFrom.providerInterceptors_eq]
  exact ⟨Resolver.find_yields hinner hsimple, Lookup.chain_yields hinner hsimple⟩

/-- Searching the last injector of a lineage for a key and demanding it come to the same, and to the
    same again through a registry that asks the injector.  Interceptors that only hand keys on
    change nothing: an injector with the same interceptors but for these, in a lineage that holds
    the same for the key, gives the same answers. -/
theorem Lineage.search_agrees
    (h : Lineage (overrides.map .overriding) interceptors (nearest :: ancestors))
    (hsimple : ∀ interceptor ∈ interceptors, interceptor.rule.Simple) (key : Key) :
    ∃ found demanded,
      ((nearest.2.resolver nearest.1).find key).Yields found ∧
      ((nearest.2.resolver nearest.1).getProvider key).Yields demanded ∧
      Agreement interceptors key found demanded ∧
      (∀ bindings : Bindings, bindings.get? key = none →
        let above := Resolver.registry bindings (some (nearest.2.resolver nearest.1))
        (above.find key).Yields found ∧ (above.getProvider key).Yields demanded) ∧
      ∀ {interceptors' nearest' ancestors'},
        Lineage (overrides.map .overriding) interceptors' (nearest' :: ancestors') →
        interceptors'.filter (!·.passes) = interceptors.filter (!·.passes) →
        (nearest' :: ancestors').findSome? (·.2.registry.bindings.get? key) =
          (nearest :: ancestors).findSome? (·.2.registry.bindings.get? key) →
        ((nearest'.2.resolver nearest'.1).find key).Yields found ∧
        ((nearest'.2.resolver nearest'.1).getProvider key).Yields demanded := by
  obtain ⟨hfind, hgetProvider⟩ := h.outcomes hsimple key
  have hagree := Agreement.of_decision interceptors key
    ((overrides.findSome? (·.get? key)).or
      ((nearest :: ancestors).findSome? (·.2.registry.bindings.get? key)))
  refine ⟨_, _, hfind, hgetProvider, hagree, fun bindings hmiss => ?_, ?_⟩
  · have hregistry := Resolver.find_registry_yields hmiss hfind
    exact ⟨hregistry, hagree.required_yields hregistry⟩
  · intro interceptors' nearest' ancestors' h' hfilter hheld
    have hsimple' := ProviderInterceptor.simple_of_filter_eq hfilter hsimple
    have hdecision : decision? interceptors' key = decision? interceptors key := by
      rw [← decision?_filter interceptors', hfilter, decision?_filter]
    obtain ⟨hfind', hgetProvider'⟩ := h'.outcomes hsimple' key
    rw [hdecision, hheld] at hfind' hgetProvider'
    exact ⟨hfind', hgetProvider'⟩

end Injector

/-! ## A key that is answered with nothing -/

namespace Silence

def overrides : List Bindings := [.ofPairs [(.plain "C", .text "override")]]

def substitute : ProviderInterceptor := .substituting (.ofPairs [(.plain "A", .text "substitute")])

/-- Both keys are silenced, but the first one has a substitute before. -/
def deciding : List ProviderInterceptor :=
  [substitute, ⟨"quiet", .silence (some (.plain "B"))⟩, ⟨"mute", .silence none⟩]

def interceptors : List ProviderInterceptor :=
  ⟨"spy", .record "before"⟩ :: deciding ++ [⟨"spy", .record "after"⟩]

/-- What is registered in a root, whatever interceptors it has. -/
def component : List Entry :=
  [.provider (.plain "A") (.text "root"), .provider (.plain "B") (.text "root")]

def first : Injector.Generation (overrides.map .overriding) interceptors :=
  .root .empty component (by decide +kernel)

def second : Injector.Generation (overrides.map .overriding) interceptors :=
  first.child [.provider (.plain "D") (.text "child")] (by decide +kernel)

def child : Injector := second.injector

/-- A root without the interceptors that only hand a key on. -/
def alone : Injector.Generation (overrides.map .overriding) deciding :=
  .root .empty component (by decide +kernel)

def bare : Injector := alone.injector

theorem simple : ∀ interceptor ∈ interceptors, interceptor.rule.Simple := by
  simp [interceptors, deciding, substitute, ProviderInterceptor.substituting, LookupRule.Simple]

theorem silenced : Silenced interceptors (.plain "B") "quiet" := by
  refine ⟨[⟨"spy", .record "before"⟩, substitute], ⟨"quiet", .silence (some (.plain "B"))⟩,
    [⟨"mute", .silence none⟩, ⟨"spy", .record "after"⟩], rfl, BEq.rfl, rfl, ?_⟩
  have hmiss : (SlotTable.ofPairs [(Key.plain "A", Provider.text "substitute")]).get?
      (.plain "B") = none := by
    decide +kernel
  simp [ProviderInterceptor.Silences, ProviderInterceptor.Overrides, substitute,
    ProviderInterceptor.substituting, hmiss]

set_option maxRecDepth 4000 in
/-- The root provides the key, but it is never found: not through the child, not through a registry
    that asks the child, and not without the interceptors that only hand it on. -/
theorem never_found :
    ((child.resolver 1).find (.plain "B")).Yields (.error (.noResult "quiet")) ∧
      ((child.resolver 1).getProvider (.plain "B")).Yields
        (.error (.noResult "quiet")) ∧
      ((Resolver.registry .empty (some (child.resolver 1))).find (.plain "B")).Yields
        (.error (.noResult "quiet")) ∧
      ((bare.resolver 0).find (.plain "B")).Yields
        (.error (.noResult "quiet")) := by
  have hlineage : Injector.Lineage _ _ ((1, child) :: second.ancestors) := second.lineage
  have hbare : Injector.Lineage _ _ [(0, bare)] := alone.lineage
  obtain ⟨found, demanded, hfind, hgetProvider, hagree, habove, hwithout⟩ :=
    hlineage.search_agrees simple (.plain "B")
  obtain ⟨rfl, rfl⟩ := hagree.silenced "quiet" silenced
  exact ⟨hfind, hgetProvider, (habove .empty rfl).1, (hwithout hbare rfl rfl).1⟩

end Silence

end Injection
