/-
  What building a graph makes of declarations.

  * `Logged.Ensures`: what holds of the result of a computation, whatever was
    reported before;
  * `Graph.Draft.kept`, `Graph.Draft.problemsFrom`: the providers that get nodes,
    and what is wrong with providers, both told by the list of providers alone;
  * `Graph.Draft.Records`: what a draft holds after providers were added;
  * `Graph.Draft.Completes`: what a finished graph holds, with the node of the
    injector, and what was found;
  * `Graph.Draft.Finished`: the same for providers with pairwise different keys;
    other providers are always found to have a problem.
-/
import Injection.Graph.Draft
import Injection.Proofs.Declaration
import Injection.Proofs.Graph
import Mathlib.Data.List.Induction

namespace Injection

/-! ## Results of computations that report -/

namespace Logged

variable {α β : Type}

/-- Whatever was reported before, the result of a computation has a property. -/
def Ensures (m : Logged α) (P : α → Prop) : Prop := ∀ log, P (m.run log).1

theorem Ensures.pure {a : α} {P : α → Prop} (h : P a) : Ensures (pure a) P := fun _ => h

theorem Ensures.bind {m : Logged α} {f : α → Logged β} {P : α → Prop} {Q : β → Prop}
    (hm : Ensures m P) (hf : ∀ a, P a → Ensures (f a) Q) : Ensures (m >>= f) Q :=
  fun log => hf _ (hm log) _

/-- What a computation that only reports comes before. -/
theorem Ensures.report {m : Logged Unit} {f : Unit → Logged β} {Q : β → Prop}
    (hf : Ensures (f ()) Q) : Ensures (m >>= f) Q :=
  bind (P := fun _ => True) (fun _ => trivial) fun _ _ => hf

theorem Ensures.mono {m : Logged α} {P Q : α → Prop} (h : Ensures m P) (hPQ : ∀ a, P a → Q a) :
    Ensures m Q :=
  fun log => hPQ _ (h log)

/-- What each step adds to the elements gone through, a fold makes of a list. -/
theorem Ensures.foldlM {f : α → β → Logged α} {γ : Type} {g : β → List γ}
    {P : α → List γ → Prop}
    (hstep : ∀ a b done, P a done → Ensures (f a b) fun a' => P a' (done ++ g b)) :
    ∀ {bs : List β} {a : α} {done : List γ}, P a done →
      Ensures (bs.foldlM f a) fun a' => P a' (done ++ bs.flatMap g)
  | [], a, done, h => .pure (by simpa using h)
  | b :: bs, a, done, h => by
    rw [List.foldlM_cons, List.flatMap_cons, ← List.append_assoc]
    exact bind (hstep a b done h) fun a' h' => foldlM hstep h'

end Logged

/-! ## Insertion into a graph -/

namespace Graph

variable {graph : Graph}

/-- A node for a new key stands after all others. -/
theorem insert_of_not_contains {key : Key} (h : graph.contains key = false) (node : Node) :
    ∃ graph', graph.insert key node = (graph', none) ∧
      graph'.nodes.toList = graph.nodes.toList ++ [(key, node)] := by
  have hkey : graph.nodes.contains key = false := h
  refine ⟨(graph.insert key node).1, Prod.ext rfl ?_, graph.wellFormed.toList_insertNew h node⟩
  show (graph.nodes.insert key node).2 = none
  rw [graph.wellFormed.insert_eq, if_neg (Bool.eq_false_iff.1 hkey)]

/-- A node for a key that is provided is handed back, and the graph stays as it is. -/
theorem insert_of_contains {key : Key} (h : graph.contains key = true) (node : Node) :
    graph.insert key node = (graph, some (key, node)) := by
  obtain ⟨nodes, hnodes⟩ := graph
  have hkey : nodes.contains key = true := h
  have hinsert : nodes.insert key node = (nodes, some (key, node)) := by
    rw [hnodes.insert_eq, if_pos hkey]
  simp only [insert, hinsert]

theorem keys_eq_map : graph.keys = graph.nodes.toList.map Prod.fst := SlotTable.keys_eq_map

namespace Draft

/-! ## Providers -/

/-- The nodes of a list of providers. -/
def nodesOf (providers : List ProviderDecl) : List (Key × Node) :=
  providers.map fun p => (p.key, .ofProvider p)

theorem find?_nodesOf (providers : List ProviderDecl) (key : Key) :
    (nodesOf providers).find? (fun pair => pair.1 == key) =
      (providers.find? (·.key == key)).map fun p => (p.key, .ofProvider p) := by
  rw [nodesOf, List.find?_map]
  rfl

/-- The providers that have nodes: the first one of those with equal keys. -/
def kept (providers : List ProviderDecl) : List ProviderDecl :=
  providers.eraseDupsBy fun p q => p.key == q.key

/-- Whether no two of a list of providers have equal keys. -/
def Distinct (providers : List ProviderDecl) : Prop :=
  providers.Pairwise fun p q => (p.key == q.key) = false

/-- The providers that an addition brings. -/
def Addition.providers : Addition → List ProviderDecl
  | .unit u => u.providers
  | .provider p => [p]

variable {providers : List ProviderDecl} {provider : ProviderDecl}

theorem distinct_concat_iff : Distinct (providers ++ [provider]) ↔
    Distinct providers ∧ ¬ ∃ p ∈ providers, (p.key == provider.key) = true := by
  simp [Distinct, List.pairwise_append]

theorem eraseDupsBy_loop_concat {α : Type} (r : α → α → Bool) (a : α) :
    ∀ as found : List α, List.eraseDupsBy.loop r (as ++ [a]) found =
      if (List.eraseDupsBy.loop r as found).any (r a) then List.eraseDupsBy.loop r as found
      else List.eraseDupsBy.loop r as found ++ [a]
  | [], found => by
    simp only [List.nil_append, List.eraseDupsBy.loop, List.any_reverse]
    cases found.any (r a) <;> simp
  | b :: as, found => by
    rw [List.cons_append, List.eraseDupsBy.loop, List.eraseDupsBy.loop]
    cases found.any (r b) with
    | true => exact eraseDupsBy_loop_concat r a as found
    | false => exact eraseDupsBy_loop_concat r a as (b :: found)

/-- A last element is kept unless it repeats one that is. -/
theorem eraseDupsBy_concat {α : Type} (r : α → α → Bool) (a : α) (as : List α) :
    (as ++ [a]).eraseDupsBy r =
      if (as.eraseDupsBy r).any (r a) then as.eraseDupsBy r else as.eraseDupsBy r ++ [a] :=
  eraseDupsBy_loop_concat r a as []

/-- The first provider of a key is kept, so it is the first one of those kept. -/
theorem find?_kept (providers : List ProviderDecl) (key : Key) :
    (kept providers).find? (·.key == key) = providers.find? (·.key == key) := by
  induction providers using List.reverseRecOn with
  | nil => rfl
  | append_singleton providers p ih =>
    rw [kept, eraseDupsBy_concat, ← kept, List.find?_append, ← ih]
    split
    · next hany =>
      obtain ⟨q, hq, hsame⟩ := List.any_eq_true.1 hany
      cases hfound : (kept providers).find? (·.key == key) with
      | some found => rfl
      | none =>
        -- `p` does not have the key, or `q` would have been found
        have hnot : ¬ (p.key == key) = true := fun hp =>
          List.find?_eq_none.1 hfound q hq (BEq.trans (BEq.symm hsame) hp)
        simp [hnot]
    · rw [List.find?_append]

theorem any_kept (providers : List ProviderDecl) (key : Key) :
    (kept providers).any (·.key == key) = providers.any (·.key == key) := by
  rw [← List.isSome_find?, ← List.isSome_find?, find?_kept]

theorem kept_concat (providers : List ProviderDecl) (provider : ProviderDecl) :
    kept (providers ++ [provider]) =
      if providers.any (·.key == provider.key) then kept providers
      else kept providers ++ [provider] := by
  rw [kept, eraseDupsBy_concat, ← kept, ← any_kept]
  simp only [BEq.comm (a := provider.key)]

theorem kept_eq_self (h : Distinct providers) : kept providers = providers := by
  induction providers using List.reverseRecOn with
  | nil => rfl
  | append_singleton providers p ih =>
    obtain ⟨hold, hnew⟩ := distinct_concat_iff.1 h
    rw [kept_concat, ih hold, if_neg (by simpa using hnew)]

/-! ## Problems of providers -/

/-- What is wrong with a provider that comes after others: its type may be open, and one of the
    others may have its key. -/
def problemsAfter (before : List ProviderDecl) (p : ProviderDecl) : List Diagnostic :=
  (if p.key.type.MentionsOpen then [⟨p.key, .nonConcrete, p.origin.render⟩] else []) ++
    if ∃ q ∈ before, (q.key == p.key) = true then [⟨p.key, .duplicate, p.origin.render⟩] else []

/-- What is wrong with providers that come one after the other, and after others. -/
def problemsFrom (before : List ProviderDecl) : List ProviderDecl → List Diagnostic
  | [] => []
  | p :: providers => problemsAfter before p ++ problemsFrom (before ++ [p]) providers

theorem problemsFrom_concat (providers : List ProviderDecl) (provider : ProviderDecl) :
    ∀ before, problemsFrom before (providers ++ [provider]) =
      problemsFrom before providers ++ problemsAfter (before ++ providers) provider := by
  induction providers with
  | nil => simp [problemsFrom]
  | cons p providers ih =>
    intro before
    rw [List.cons_append, problemsFrom, problemsFrom, ih, List.append_assoc, List.append_assoc]
    rfl

/-- The first provider that took the key of the injector, as a problem at its place. -/
def injectorProblems (providers : List ProviderDecl) : List Diagnostic :=
  match providers.find? (·.key == .injector) with
  | none => []
  | some p => [⟨.injector, .duplicate, p.origin.render⟩]

/-- The providers of types that are not concrete, each as a problem at its own place. -/
def openDiagnostics (providers : List ProviderDecl) : List Diagnostic :=
  (providers.filter fun p => !p.key.type.isConcrete).map fun p =>
    ⟨p.key, .nonConcrete, p.origin.render⟩

theorem openDiagnostics_append (providers providers' : List ProviderDecl) :
    openDiagnostics (providers ++ providers') =
      openDiagnostics providers ++ openDiagnostics providers' := by
  rw [openDiagnostics, List.filter_append, List.map_append]
  rfl

theorem openDiagnostics_eq_nil_iff :
    openDiagnostics providers = [] ↔ ∀ p ∈ providers, p.key.type.isConcrete = true := by
  simp [openDiagnostics]

theorem openDiagnostics_singleton (p : ProviderDecl) : openDiagnostics [p] =
    if p.key.type.MentionsOpen then [⟨p.key, .nonConcrete, p.origin.render⟩] else [] := by
  rw [openDiagnostics]
  simp only [← TypeExpr.isConcrete_eq_false_iff]
  cases hconcrete : p.key.type.isConcrete with
  | true => simp [hconcrete]
  | false => simp [hconcrete]

theorem problemsFrom_of_distinct (h : Distinct providers) :
    problemsFrom [] providers = openDiagnostics providers := by
  induction providers using List.reverseRecOn with
  | nil => rfl
  | append_singleton providers p ih =>
    obtain ⟨hold, hnew⟩ := distinct_concat_iff.1 h
    rw [problemsFrom_concat, ih hold, openDiagnostics_append, openDiagnostics_singleton,
      List.nil_append, problemsAfter, if_neg hnew, List.append_nil]

/-- A second provider for a key is a problem. -/
theorem distinct_of_problemsFrom (h : problemsFrom [] providers = []) : Distinct providers := by
  induction providers using List.reverseRecOn with
  | nil => exact .nil
  | append_singleton providers p ih =>
    rw [problemsFrom_concat, List.append_eq_nil_iff, List.nil_append] at h
    refine distinct_concat_iff.2 ⟨ih h.1, fun hsome => ?_⟩
    have := (List.append_eq_nil_iff.1 h.2).2
    rw [if_pos hsome] at this
    cases this

/-! ## Drafts -/

/-- A draft to which a list of providers was added. -/
structure Records (draft : Draft) (providers : List ProviderDecl) : Prop where
  nodes_eq : draft.graph.nodes.toList = nodesOf (kept providers)
  diagnostics_eq : draft.diagnostics.toList = problemsFrom [] providers

theorem Records.empty : Records .empty [] := ⟨rfl, rfl⟩

theorem Records.contains_eq {draft : Draft} (h : draft.Records providers) (key : Key) :
    draft.graph.contains key = providers.any (·.key == key) := by
  rw [Bool.eq_iff_iff, contains_iff_keys, keys_eq_map, h.nodes_eq, ← any_kept]
  simp [Key.Among, nodesOf]

/-- A key has the node of the first provider with this key. -/
theorem Records.node?_eq {draft : Draft} (h : draft.Records providers) (key : Key) :
    draft.graph.node? key = (providers.find? (·.key == key)).map .ofProvider := by
  rw [node?, draft.graph.wellFormed.get?_eq_find?, h.nodes_eq, find?_nodesOf, find?_kept,
    Option.map_map]
  rfl

theorem checkConcrete_ensures (diagnostics : Array Diagnostic) (provider : ProviderDecl) :
    (checkConcrete diagnostics provider).Ensures fun diagnostics' =>
      diagnostics'.toList = diagnostics.toList ++ openDiagnostics [provider] := by
  rw [checkConcrete]
  split
  · next hconcrete => exact .pure (by simp [openDiagnostics, hconcrete])
  · next hopen => exact .report (.pure (by simp [openDiagnostics, hopen]))

theorem Records.addProvider {draft : Draft} (h : draft.Records providers)
    (provider : ProviderDecl) :
    (draft.addProvider provider).Ensures fun draft' =>
      draft'.Records (providers ++ [provider]) := by
  have hcontains := h.contains_eq provider.key
  obtain ⟨graph, diagnostics⟩ := draft
  refine (checkConcrete_ensures diagnostics provider).bind fun diagnostics' hdiagnostics => ?_
  rw [h.diagnostics_eq, openDiagnostics_singleton] at hdiagnostics
  cases hany : providers.any (·.key == provider.key) with
  | false =>
    rw [hany] at hcontains
    obtain ⟨graph', hinsert, hnodes⟩ := insert_of_not_contains hcontains (.ofProvider provider)
    have hnew : ¬ ∃ p ∈ providers, (p.key == provider.key) = true := by simpa using hany
    rw [hinsert]
    refine .pure ⟨?_, ?_⟩
    · rw [hnodes, h.nodes_eq, kept_concat, hany]
      simp [nodesOf]
    · rw [hdiagnostics, problemsFrom_concat, List.nil_append, problemsAfter, if_neg hnew,
        List.append_nil]
  | true =>
    rw [hany] at hcontains
    have hold : ∃ p ∈ providers, (p.key == provider.key) = true := List.any_eq_true.1 hany
    rw [insert_of_contains hcontains]
    refine .report (.pure ⟨?_, ?_⟩)
    · rw [h.nodes_eq, kept_concat, hany, if_pos rfl]
    · rw [Array.toList_push, hdiagnostics, problemsFrom_concat, List.nil_append, problemsAfter,
        if_pos hold, List.append_assoc]
      rfl

theorem Records.add {draft : Draft} (h : draft.Records providers) (addition : Addition) :
    (draft.add addition).Ensures fun draft' =>
      draft'.Records (providers ++ addition.providers) := by
  cases addition with
  | unit unit =>
    have hfold : (unit.providers.foldlM Draft.addProvider draft).Ensures fun draft' =>
        draft'.Records (providers ++ unit.providers.flatMap fun p => [p]) :=
      .foldlM (fun _ provider _ hdone => hdone.addProvider provider) h
    rw [List.flatMap_singleton'] at hfold
    exact .report hfold
  | provider provider => exact h.addProvider provider

/-! ## The injector -/

/-- A graph that was finished with the node of the injector, and the problems found. -/
structure Completes (graph : Graph) (found : List Diagnostic) (providers : List ProviderDecl) :
    Prop where
  nodes_eq : graph.nodes.toList = nodesOf (kept providers) ++
    if providers.any (·.key == .injector) then [] else [(.injector, .ofEdges [])]
  found_eq : found = problemsFrom [] providers ++ injectorProblems providers

/-- A key has the node of the first provider with this key, and the injector one of its own if no
    provider took its key. -/
theorem Completes.node?_eq {graph : Graph} {found : List Diagnostic}
    (h : Completes graph found providers) (key : Key) :
    graph.node? key = ((providers.find? (·.key == key)).map Node.ofProvider).or
      (if Key.injector == key then some (.ofEdges []) else none) := by
  rw [node?, graph.wellFormed.get?_eq_find?, h.nodes_eq, List.find?_append, find?_nodesOf,
    find?_kept]
  cases hfind : providers.find? (·.key == key) with
  | some p => rfl
  | none =>
    by_cases hany : providers.any (·.key == .injector) = true
    · -- the key is not that of the injector, or its provider would have been found
      obtain ⟨p, hp, hsame⟩ := List.any_eq_true.1 hany
      have hother : ¬ (Key.injector == key) = true := fun hinjector =>
        List.find?_eq_none.1 hfind p hp (BEq.trans hsame hinjector)
      rw [if_pos hany, if_neg hother]
      rfl
    · rw [if_neg hany, List.find?_singleton]
      by_cases hinjector : (Key.injector == key) = true
      · rw [if_pos hinjector, if_pos hinjector]
        rfl
      · rw [if_neg hinjector, if_neg hinjector]
        rfl

theorem Records.addInjector {draft : Draft} (h : draft.Records providers) :
    draft.addInjector.Ensures fun draft' =>
      Completes draft'.graph draft'.diagnostics.toList providers := by
  have hcontains := h.contains_eq .injector
  obtain ⟨graph, diagnostics⟩ := draft
  rw [Draft.addInjector]
  dsimp only
  cases hfind : providers.find? (·.key == .injector) with
  | none =>
    have hany : providers.any (·.key == .injector) = false := by
      rw [← List.isSome_find?, hfind, Option.isSome_none]
    rw [hany] at hcontains
    obtain ⟨graph', hinsert, hnodes⟩ := insert_of_not_contains hcontains (.ofEdges [])
    rw [hinsert]
    refine .pure ⟨?_, ?_⟩
    · rw [hnodes, h.nodes_eq, hany]
      rfl
    · rw [h.diagnostics_eq, injectorProblems, hfind, List.append_nil]
  | some p =>
    have hany : providers.any (·.key == .injector) = true := by
      rw [← List.isSome_find?, hfind, Option.isSome_some]
    rw [hany] at hcontains
    rw [insert_of_contains hcontains]
    refine .report (.pure ⟨?_, ?_⟩)
    · rw [h.nodes_eq, hany, if_pos rfl, List.append_nil]
    · rw [Array.toList_push, h.diagnostics_eq, injectorProblems, hfind, h.node?_eq, hfind]
      rfl

/-- Whether the keys of a list of providers and that of the injector are pairwise different. -/
def Apart (providers : List ProviderDecl) : Prop :=
  Distinct providers ∧ ∀ p ∈ providers, (p.key == .injector) = false

/-- What a finished graph holds if the keys are pairwise different, and that it is no finished graph
    without problems if they are not. -/
structure Finished (graph : Graph) (found : List Diagnostic) (providers : List ProviderDecl) :
    Prop where
  nodes_eq : Apart providers →
    graph.nodes.toList = nodesOf providers ++ [(.injector, .ofEdges [])]
  found_eq : Apart providers → found = openDiagnostics providers
  apart : found = [] → Apart providers

theorem Apart.any_eq_false (h : Apart providers) : providers.any (·.key == .injector) = false := by
  simpa using h.2

theorem Apart.injectorProblems_eq (h : Apart providers) : injectorProblems providers = [] := by
  have hfind : providers.find? (·.key == .injector) = none := by
    simpa using h.2
  rw [injectorProblems, hfind]

theorem Completes.finished {graph : Graph} {found : List Diagnostic}
    (h : Completes graph found providers) : Finished graph found providers where
  nodes_eq hapart := by
    rw [h.nodes_eq, kept_eq_self hapart.1, hapart.any_eq_false]
    rfl
  found_eq hapart := by
    rw [h.found_eq, problemsFrom_of_distinct hapart.1, hapart.injectorProblems_eq, List.append_nil]
  apart hnone := by
    rw [h.found_eq, List.append_eq_nil_iff] at hnone
    refine ⟨distinct_of_problemsFrom hnone.1, fun p hp => ?_⟩
    have hinjector := hnone.2
    rw [injectorProblems] at hinjector
    split at hinjector
    · next hfind => simpa using List.find?_eq_none.1 hfind p hp
    · cases hinjector

/-- Nothing was found exactly in concrete providers whose keys, with that of the injector, are
    pairwise different. -/
theorem Finished.found_eq_nil {graph : Graph} {found : List Diagnostic}
    {providers : List ProviderDecl} (h : Finished graph found providers) :
    found = [] ↔ (∀ p ∈ providers, p.key.type.isConcrete = true) ∧ Apart providers := by
  constructor
  · intro hnone
    have hapart := h.apart hnone
    rw [h.found_eq hapart] at hnone
    exact ⟨openDiagnostics_eq_nil_iff.1 hnone, hapart⟩
  · rintro ⟨hconcrete, hapart⟩
    rw [h.found_eq hapart]
    exact openDiagnostics_eq_nil_iff.2 hconcrete

end Draft

/-- The graph of additions has a node for the first provider of each key, and for the injector. -/
theorem ofAdditions_completes (additions : List Draft.Addition) :
    (ofAdditions additions).Ensures fun built =>
      Draft.Completes built.1 built.2 (additions.flatMap Draft.Addition.providers) := by
  have hfold : (additions.foldlM Draft.add .empty).Ensures fun draft =>
      draft.Records ([] ++ additions.flatMap Draft.Addition.providers) :=
    .foldlM (fun _ addition _ hdone => hdone.add addition) .empty
  refine hfold.bind fun draft hdraft => ?_
  refine hdraft.addInjector.bind fun draft' hdraft' => ?_
  exact .report (.pure hdraft')

/-- Modules are added one after the other. -/
theorem ofModules_eq (modules : List ModuleDecl) :
    ofModules modules = ofAdditions (modules.map .unit) := by
  rw [ofAdditions, List.foldlM_map]
  rfl

theorem ofModules_completes (modules : List ModuleDecl) :
    (ofModules modules).Ensures fun built =>
      Draft.Completes built.1 built.2 (declared modules) := by
  have h := ofAdditions_completes (modules.map .unit)
  rw [← ofModules_eq, List.flatMap_map] at h
  exact h

end Graph

end Injection
