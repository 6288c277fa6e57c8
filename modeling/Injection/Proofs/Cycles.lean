/-
  The search for cycles finds what it looks for.

  * `CycleSearch.Inv` puts together what the search keeps at every step, and
    `CycleSearch.State.work` is what it still has to do;
  * `cycles_eq_nil_iff`: nothing is reported exactly in graphs without cycles;
  * `cycles_report`: the search ends, and reports keys of cycles, each once;
  * `cycles_meet`: every cycle shares a dependency with one that is reported as a
    whole, and is so itself if it does not branch.  Not every key of a cycle is
    reported (`cycles_pass_over_wheel`).
-/
import Injection.Proofs.CycleSearch

namespace Injection

open Relation

namespace Graph

namespace CycleSearch

variable {graph : Graph} {state next : State}

/-! ## The invariant -/

/-- A search from some keys, in their order. -/
def searchFrom (roots : List Key) : State := ⟨.empty, .empty, [], [], #[], roots⟩

/-- The part of the invariant that holds of a search from any keys. -/
structure Steady (graph : Graph) (state : State) : Prop where
  coloured : Coloured graph state.entered state.explored state.path
  claimed : Claimed graph state.entered state.path state.unclaimed state.participants.toList

theorem steady_searchFrom (roots : List Key) : Steady graph (searchFrom roots) := ⟨.nil, .nil⟩

/-- The last key of a path needs the dependency that is to be followed. -/
theorem Coloured.needs {entered : SlotTable Key Nat} {explored : KeySet} {rest : List Frame}
    {key d : Key} {place : Nat} {pending : List Key}
    (h : Coloured graph entered explored (⟨key, place, d :: pending⟩ :: rest)) :
    graph.Needs key d := by
  obtain ⟨done, heager, -⟩ := h.followed _ List.mem_cons_self
  exact .of_mem (heager ▸ List.mem_append_right _ List.mem_cons_self)

theorem Steady.move (h : Steady graph state) (hmove : Move graph state next) :
    Steady graph next := by
  obtain ⟨hc, hcl⟩ := h
  cases hmove with
  | stay => exact ⟨hc, hcl⟩
  | skip => exact ⟨hc, hcl⟩
  | @start _ _ unclaimed _ _ _ hroot =>
    obtain rfl : unclaimed = [] := List.sublist_nil.1 hcl.sublist
    exact ⟨hc.push hroot (by simp), hcl.push hc hroot⟩
  | leave => exact ⟨hc.leave, hcl.leave hc⟩
  | @enter entered explored key place d pending rest unclaimed _ _ hd =>
    have hhead : ∀ frame ∈ (⟨key, place, d :: pending⟩ :: rest).head?, graph.Needs frame.key d := by
      intro frame hframe
      obtain rfl := Option.some.inj hframe
      exact hc.needs
    have hentered : (entered.insertNew d (place + 1)).contains d = true := by
      simp [hc.entered_wf.contains_insertNew]
    exact ⟨(hc.push hd hhead).advance [_] hentered, (hcl.push hc hd).congr rfl⟩
  | pass hd => exact ⟨hc.advance [] hd, hcl.congr rfl⟩
  | close hentry hgray =>
    have hclose := (hcl.close hc rfl hc.needs hentry hgray).1
    refine ⟨hc.advance [] (SlotTable.contains_of_get? hentry), ?_⟩
    dsimp only
    rw [Array.toList_appendList]
    exact hclose.congr rfl

/-- What holds between any two steps of the search. -/
structure Inv (graph : Graph) (state : State) : Prop where
  coloured : Coloured graph state.entered state.explored state.path
  claimed : Claimed graph state.entered state.path state.unclaimed state.participants.toList
  /-- A key of the graph is entered or still to come. -/
  roots : ∀ key ∈ graph.keys, state.entered.contains key = true ∨ key ∈ state.roots
  finished : Finished graph state.participants.toList state.explored state.path

theorem inv_start : Inv graph (start graph) where
  coloured := .nil
  claimed := .nil
  roots _ hkey := Or.inr hkey
  finished := .nil

theorem Inv.steady (h : Inv graph state) : Steady graph state := ⟨h.coloured, h.claimed⟩

theorem Inv.move (h : Inv graph state) (hmove : Move graph state next) : Inv graph next := by
  obtain ⟨hsc, hscl⟩ := h.steady.move hmove
  obtain ⟨hc, hcl, hroots, hfin⟩ := h
  have hgrow : ∀ {entered : SlotTable Key Nat} (_ : entered.WellFormed) (key : Key) (place : Nat)
      {k : Key}, entered.contains k = true → (entered.insertNew key place).contains k = true :=
    fun hwf key place k hk => by rw [hwf.contains_insertNew, hk, Bool.true_or]
  cases hmove with
  | stay => exact ⟨hsc, hscl, hroots, hfin⟩
  | @skip _ _ _ _ root _ hroot =>
    refine ⟨hsc, hscl, fun key hkey => ?_, hfin⟩
    rcases hroots key hkey with hkey | hkey
    · exact Or.inl hkey
    · rcases List.mem_cons.1 hkey with rfl | hkey
      · exact Or.inl hroot
      · exact Or.inr hkey
  | @start entered explored unclaimed _ root _ hroot =>
    refine ⟨hsc, hscl, fun key hkey => ?_, hfin.push root⟩
    rcases hroots key hkey with hkey | hkey
    · exact Or.inl (hgrow hc.entered_wf _ _ hkey)
    · rcases List.mem_cons.1 hkey with rfl | hkey
      · refine Or.inl ?_
        simp [State.enter, hc.entered_wf.contains_insertNew]
      · exact Or.inr hkey
  | leave => exact ⟨hsc, hscl, hroots, hfin.leave hc⟩
  | @enter entered explored key place d pending rest unclaimed _ _ hd =>
    refine ⟨hsc, hscl, fun k hk => (hroots k hk).imp_left (hgrow hc.entered_wf _ _), ?_⟩
    refine (hfin.push d).advance [_] (Or.inr (Or.inr ⟨_, List.mem_cons_self, ?_⟩))
    exact ⟨BEq.rfl, Nat.lt_succ_self _⟩
  | pass hd hblack => exact ⟨hsc, hscl, hroots, hfin.advance [] (Or.inr (Or.inl hblack))⟩
  | close hentry hgray =>
    have hexposed := (hcl.close hc rfl hc.needs hentry hgray).2
    refine ⟨hsc, hscl, hroots, ?_⟩
    dsimp only
    rw [Array.toList_appendList]
    exact (hfin.mono (List.subset_append_left _ _)).advance [] (Or.inl hexposed)

/-! ## The end of the search -/

/-- What a search still has to do: each root is taken once, each dependency followed once, and
    each key entered by one of these left once. -/
def State.work (graph : Graph) (state : State) : Nat :=
  2 * state.roots.length + state.path.length +
    2 * (state.path.map fun frame => frame.pending.length).sum +
    2 * unseen (fun key => (graph.eager key).length) state.entered.contains graph.keys

theorem Steady.work_lt (h : Steady graph state) (hmove : Move graph state next)
    (hdone : state.isDone = false) : next.work graph < state.work graph := by
  obtain ⟨hc, -⟩ := h
  cases hmove with
  | stay => cases hdone
  | skip => simp only [State.work, List.length_cons]; omega
  | start hroot =>
    have hunseen := unseen_eager_insertNew graph hc.entered_wf hroot 0
    dsimp only at hunseen
    simp only [State.work, State.enter, nextPlace, List.length_cons, List.map_cons, List.sum_cons,
      List.length_nil, List.map_nil, List.sum_nil]
    omega
  | leave => simp only [State.work, List.length_cons, List.map_cons, List.sum_cons]; omega
  | @enter _ _ _ place _ _ _ _ _ _ hd =>
    have hunseen := unseen_eager_insertNew graph hc.entered_wf hd (place + 1)
    dsimp only at hunseen
    simp only [State.work, State.enter, nextPlace, List.length_cons, List.map_cons, List.sum_cons]
    omega
  | pass => simp only [State.work, List.length_cons, List.map_cons, List.sum_cons]; omega
  | close => simp only [State.work, List.length_cons, List.map_cons, List.sum_cons]; omega

theorem work_searchFrom (graph : Graph) (roots : List Key) :
    (searchFrom roots).work graph ≤ 2 * (roots.length + graph.edgeCount) := by
  have hunseen := unseen_eager_le graph (searchFrom roots).entered.contains
  simp only [State.work, searchFrom, List.length_nil, List.map_nil, List.sum_nil] at hunseen ⊢
  omega

theorem work_start (graph : Graph) :
    (start graph).work graph ≤ 2 * (graph.size + graph.edgeCount) := by
  rw [size_eq_length_keys]
  exact work_searchFrom graph graph.keys

/-- A search from any keys ends. -/
theorem run_searchFrom_isDone (graph : Graph) (roots : List Key) :
    (run graph (2 * (roots.length + graph.edgeCount)) (searchFrom roots)).isDone = true :=
  (Walk.run_spec (fun state h => h.move (move_step state))
    (fun state h hdone => h.work_lt (move_step state) hdone) (steady_searchFrom roots)
    (work_searchFrom graph roots)).2

theorem run_spec (graph : Graph) :
    Inv graph (run graph (2 * (graph.size + graph.edgeCount)) (start graph)) ∧
      (run graph (2 * (graph.size + graph.edgeCount)) (start graph)).isDone = true :=
  Walk.run_spec (fun state h => h.move (move_step state))
    (fun state h hdone => h.steady.work_lt (move_step state) hdone) inv_start (work_start graph)

/-- When the search is over, every provided key is black. -/
theorem Inv.explored (h : Inv graph state) (hdone : state.isDone = true) {key : Key}
    (hkey : graph.contains key = true) : state.explored.contains key = true := by
  obtain ⟨hpath, hroots⟩ : state.path = [] ∧ state.roots = [] := by
    simpa [State.isDone] using hdone
  obtain ⟨k, hk, hsame⟩ := contains_iff_keys.1 hkey
  rw [← h.coloured.explored_wf.contains_congr hsame]
  by_contra hgray
  rcases h.roots k hk with hentered | hroot
  · obtain ⟨spot, hspot, -⟩ := h.coloured.gray hentered (by simpa using hgray)
    rw [hpath] at hspot
    cases hspot
  · rw [hroots] at hroot
    cases hroot

/-- When the search is over, dependencies lead to keys that turned black before unless they are
    exposed, so only exposed ones lead back. -/
theorem Inv.exposed (h : Inv graph state) (hdone : state.isDone = true) (key : Key) :
    ¬ TransGen (fun a b => graph.Needs a b ∧ ¬ graph.Exposed state.participants.toList a b)
      key key := by
  have hwf := h.coloured.explored_wf
  have hlower : ∀ {a b : Key},
      TransGen (fun a b => graph.Needs a b ∧ ¬ graph.Exposed state.participants.toList a b) a b →
        state.explored.keys.findIdx (· == b) < state.explored.keys.findIdx (· == a) := by
    intro a b hab
    induction hab with
    | single hab => exact h.finished.findIdx_lt (h.explored hdone hab.1.contains) hwf hab.1 hab.2
    | tail _ hbc ih =>
      exact (h.finished.findIdx_lt (h.explored hdone hbc.1.contains) hwf hbc.1 hbc.2).trans ih
  exact fun hcycle => Nat.lt_irrefl _ (hlower hcycle)

end CycleSearch

variable {graph : Graph}

/-! ## Results -/

/-- What is reported takes part in a cycle. -/
theorem trans_needs_of_mem_cycles {key : Key} (h : key ∈ graph.cycles) :
    TransGen graph.Needs key key :=
  (CycleSearch.run_spec graph).1.claimed.cyclic key h

theorem cycles_distinct : graph.cycles.Pairwise fun a b => (a == b) = false :=
  (List.pairwise_append.1 (CycleSearch.run_spec graph).1.claimed.distinct).1

/-- Dependencies that reported cycles do not expose close no cycle. -/
theorem acyclic_of_not_exposed (graph : Graph) (key : Key) :
    ¬ TransGen (fun a b => graph.Needs a b ∧ ¬ graph.Exposed graph.cycles a b) key key := by
  obtain ⟨hinv, hdone⟩ := CycleSearch.run_spec graph
  exact hinv.exposed hdone key

theorem cycles_eq_nil_iff : graph.cycles = [] ↔ graph.Acyclic := by
  constructor
  · intro hnone key hcycle
    refine acyclic_of_not_exposed graph key
      (TransGen.mono (fun a b hneeds => ⟨hneeds, ?_⟩) _ _ hcycle)
    -- without reports no dependency is exposed
    rintro ⟨⟨-, ⟨k, hk, -⟩, -⟩, -⟩
    rw [hnone] at hk
    cases hk
  · intro hacyclic
    rw [List.eq_nil_iff_forall_not_mem]
    exact fun key hkey => hacyclic key (trans_needs_of_mem_cycles hkey)

/-- A walk of dependencies has one that is exposed, or leads on by others only. -/
theorem exposed_or_trans {keys : List Key} {a b : Key} (h : TransGen graph.Needs a b) :
    (∃ c d, ReflTransGen graph.Needs a c ∧ graph.Exposed keys c d ∧ ReflTransGen graph.Needs d b) ∨
      TransGen (fun a b => graph.Needs a b ∧ ¬ graph.Exposed keys a b) a b := by
  induction h with
  | @single b h =>
    by_cases hexposed : graph.Exposed keys a b
    · exact Or.inl ⟨a, b, .refl, hexposed, .refl⟩
    · exact Or.inr (.single ⟨h, hexposed⟩)
  | @tail b c hab hbc ih =>
    rcases ih with ⟨k, d, hk, hexposed, hd⟩ | hwalk
    · exact Or.inl ⟨k, d, hk, hexposed, hd.tail hbc⟩
    · by_cases hexposed : graph.Exposed keys b c
      · exact Or.inl ⟨b, c, hab.to_reflTransGen, hexposed, .refl⟩
      · exact Or.inr (hwalk.tail ⟨hbc, hexposed⟩)

/-- The need of `a` for `b` is part of a closed walk through a key. -/
def OnCycle (graph : Graph) (key a b : Key) : Prop :=
  ReflTransGen graph.Needs key a ∧ graph.Needs a b ∧ ReflTransGen graph.Needs b key

/-- From each key on the closed walks through a key one dependency leads back to it. -/
def Unbranched (graph : Graph) (key : Key) : Prop :=
  ∀ a b b', graph.OnCycle key a b → graph.OnCycle key a b' → (b == b') = true

/-- Closed walks through a key that do not branch are exposed as a whole if one of their
    dependencies is. -/
theorem Unbranched.among {keys : List Key} {key a b : Key} (h : graph.Unbranched key)
    (ha : ReflTransGen graph.Needs key a) (hexposed : graph.Exposed keys a b)
    (hb : ReflTransGen graph.Needs b key) : Key.Among keys key := by
  have hneeds : ∀ {c d : Key}, ReflTransGen (graph.NeedsWithin keys) c d →
      ReflTransGen graph.Needs c d := fun h => ReflTransGen.mono (fun _ _ hcd => hcd.1) _ _ h
  have hback : ReflTransGen graph.Needs a key := .head hexposed.1.1 hb
  -- the walk from `b` to the key goes the way back to `a` through the keys
  have hwalk : ∀ {c : Key}, ReflTransGen graph.Needs b c → ReflTransGen graph.Needs c key →
      Key.Among keys c ∧ TransGen (graph.NeedsWithin keys) c a := by
    intro c hbc
    induction hbc with
    | refl => exact fun _ => ⟨hexposed.1.2.2, hexposed.2⟩
    | @tail c d hbc hcd ih =>
      intro hd
      obtain ⟨-, hca⟩ := ih (.head hcd hd)
      obtain ⟨e, hce, hea⟩ := TransGen.head'_iff.1 hca
      have hc : ReflTransGen graph.Needs key c := ha.trans (.head hexposed.1.1 hbc)
      have hsame : (e == d) = true :=
        h c e d ⟨hc, hce.1, (hneeds hea).trans hback⟩ ⟨hc, hcd, hd⟩
      refine ⟨hce.2.2.congr hsame, Key.Respects.transGen NeedsWithin.congr ?_ hsame BEq.rfl⟩
      rcases reflTransGen_iff_eq_or_transGen.1 hea with rfl | hea
      · exact .head hexposed.1 hexposed.2
      · exact hea
  exact (hwalk hb .refl).1

/-- Closed walks that do not branch are reported as a whole. -/
theorem among_cycles_of_unbranched {key : Key} (hcycle : TransGen graph.Needs key key)
    (h : graph.Unbranched key) : Key.Among graph.cycles key := by
  rcases exposed_or_trans hcycle with ⟨a, b, ha, hexposed, hb⟩ | hwalk
  · exact h.among ha hexposed hb
  · exact absurd hwalk (acyclic_of_not_exposed graph key)

/-- The search ends; it reports provided keys that need themselves for their own construction,
    each of them once, and it reports nothing only if no key does. -/
theorem cycles_report (graph : Graph) :
    (CycleSearch.run graph (2 * (graph.size + graph.edgeCount))
      (CycleSearch.start graph)).isDone = true ∧
    graph.cycles.Pairwise (fun a b => (a == b) = false) ∧
    (∀ key ∈ graph.cycles, graph.contains key = true ∧ TransGen graph.Needs key key) ∧
    (graph.cycles = [] ↔ graph.Acyclic) := by
  refine ⟨(CycleSearch.run_spec graph).2, cycles_distinct, fun key hkey => ?_, cycles_eq_nil_iff⟩
  have hcycle := trans_needs_of_mem_cycles hkey
  exact ⟨Needs.trans_contains hcycle, hcycle⟩

/-- Every cycle has a dependency that is part of a cycle whose keys are all reported, and where
    cycles do not branch all their keys are reported. -/
theorem cycles_meet (graph : Graph) :
    (∀ key, ¬ TransGen (fun a b => graph.Needs a b ∧ ¬ graph.Exposed graph.cycles a b) key key) ∧
    ∀ key, TransGen graph.Needs key key → graph.Unbranched key → Key.Among graph.cycles key :=
  ⟨acyclic_of_not_exposed graph, fun _ => among_cycles_of_unbranched⟩

/-! ## Keys of cycles that are not reported -/

namespace Tangle

def car : Key := .plain "Car"

def engine : Key := .plain "Engine"

def wheel : Key := .plain "Wheel"

/-- Cars and engines need each other, and cars also need wheels, which need engines. -/
def tangled : Graph := .ofAdjacency [(car, [engine, wheel]), (engine, [car]), (wheel, [engine])]

/-- Wheels need themselves, but all that they need is explored before them: the one dependency of
    theirs leads to a black key. -/
theorem cycles_pass_over_wheel :
    tangled.contains wheel = true ∧ TransGen tangled.Needs wheel wheel ∧
      ¬ Key.Among tangled.cycles wheel := by
  have hwheel : tangled.Needs wheel engine := by
    unfold Needs
    decide +kernel
  have hengine : tangled.Needs engine car := by
    unfold Needs
    decide +kernel
  have hcar : tangled.Needs car wheel := by
    unfold Needs
    decide +kernel
  refine ⟨by decide +kernel, .tail (.tail (.single hwheel) hengine) hcar, ?_⟩
  unfold Key.Among
  decide +kernel

end Tangle

end Graph

end Injection
