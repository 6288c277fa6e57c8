/-
  The recursive post-order walk over a graph, as a relation.

  * `PostOrder graph seen keys seen' instructions`: from the keys in `seen`, the
    walk through `keys` leads to `seen'` and emits `instructions`;
  * `PostOrder.unique`: the walk has one outcome;
  * `PostOrder.distinct`, `PostOrder.instruction`, `PostOrder.entered`: it emits
    one instruction for each provided key that it enters;
  * `Placed` is what it knows of the keys it met before, and `PostOrder.ordered`
    follows from it: in a graph without cycles the instructions of eager
    dependencies are emitted first.
-/
import Injection.Plan
import Injection.Proofs.Graph

namespace Injection

open Relation

namespace Plan

/-- Whether the walk passes a key over: the injector's, and those entered before. -/
def Passed (seen : List Key) (key : Key) : Prop :=
  (key == .injector) = true ∨ Key.Among seen key

/-- The recursive walk through a list of keys: a key is entered unless it is passed over, its eager
    dependencies are walked through in order, and then its instruction is emitted. -/
inductive PostOrder (graph : Graph) :
    List Key → List Key → List Key → List Instruction → Prop
  | done {seen} : PostOrder graph seen [] seen []
  | pass {seen seen' key keys out} :
    Passed seen key → PostOrder graph seen keys seen' out →
    PostOrder graph seen (key :: keys) seen' out
  /-- A key that nothing provides has no instruction. -/
  | absent {seen seen' key keys out} :
    ¬ Passed seen key → graph.node? key = none → PostOrder graph (key :: seen) keys seen' out →
    PostOrder graph seen (key :: keys) seen' out
  | visit {seen inner seen' key keys node before after} :
    ¬ Passed seen key → graph.node? key = some node →
    PostOrder graph (key :: seen) node.eager inner before →
    PostOrder graph inner keys seen' after →
    PostOrder graph seen (key :: keys) seen' (before ++ .ofNode key node :: after)

theorem Passed.mono {seen seen' : List Key} {key : Key} (h : Passed seen key)
    (hsub : seen ⊆ seen') : Passed seen' key :=
  h.imp_right fun hamong => hamong.mono hsub

theorem Passed.of_mem {seen : List Key} {key : Key} (h : key ∈ seen) : Passed seen key :=
  Or.inr (.of_mem h)

namespace PostOrder

variable {graph : Graph} {seen seen' keys : List Key} {out : List Instruction}

/-! ## Keys and instructions -/

theorem unique (h : PostOrder graph seen keys seen' out) :
    ∀ {seen'' : List Key} {out' : List Instruction}, PostOrder graph seen keys seen'' out' →
      seen' = seen'' ∧ out = out' := by
  induction h with
  | done =>
    intro _ _ h'
    cases h'
    exact ⟨rfl, rfl⟩
  | pass hpass _ ih =>
    intro _ _ h'
    cases h' with
    | pass _ h' => exact ih h'
    | absent hnot => exact absurd hpass hnot
    | visit hnot => exact absurd hpass hnot
  | absent hnot hnone _ ih =>
    intro _ _ h'
    cases h' with
    | pass hpass => exact absurd hpass hnot
    | absent _ _ h' => exact ih h'
    | visit _ hnode => rw [hnone] at hnode; cases hnode
  | visit hnot hnode _ _ ihbefore ihafter =>
    intro _ _ h'
    cases h' with
    | pass hpass => exact absurd hpass hnot
    | absent _ hnone => rw [hnone] at hnode; cases hnode
    | visit _ hnode' hbefore hafter =>
      obtain rfl := Option.some.inj (hnode.symm.trans hnode')
      obtain ⟨rfl, rfl⟩ := ihbefore hbefore
      obtain ⟨rfl, rfl⟩ := ihafter hafter
      exact ⟨rfl, rfl⟩

/-- The walk through one more key first. -/
theorem cons {inner : List Key} {key : Key} {before after : List Instruction}
    (h : PostOrder graph seen [key] inner before)
    (hrest : PostOrder graph inner keys seen' after) :
    PostOrder graph seen (key :: keys) seen' (before ++ after) := by
  cases h with
  | pass hpass h => cases h with | done => exact .pass hpass hrest
  | absent hnot hnone h => cases h with | done => exact .absent hnot hnone hrest
  | visit hnot hnode hbefore h =>
    cases h with
    | done => simpa using PostOrder.visit hnot hnode hbefore hrest

theorem subset (h : PostOrder graph seen keys seen' out) : seen ⊆ seen' := by
  induction h with
  | done => exact List.Subset.refl _
  | pass _ _ ih => exact ih
  | absent _ _ _ ih => exact List.Subset.trans (List.subset_cons_self _ _) ih
  | visit _ _ _ _ ihbefore ihafter =>
    exact List.Subset.trans (List.Subset.trans (List.subset_cons_self _ _) ihbefore) ihafter

/-- Every key that was walked through is passed over from then on. -/
theorem passed (h : PostOrder graph seen keys seen' out) : ∀ key ∈ keys, Passed seen' key := by
  induction h with
  | done => exact fun _ hkey => by cases hkey
  | pass hpass h ih => exact List.forall_mem_cons.2 ⟨hpass.mono h.subset, ih⟩
  | absent _ _ h ih =>
    exact List.forall_mem_cons.2 ⟨(Passed.of_mem List.mem_cons_self).mono h.subset, ih⟩
  | visit _ _ hbefore hafter _ ihafter =>
    have hentered := (Passed.of_mem List.mem_cons_self).mono hbefore.subset
    exact List.forall_mem_cons.2 ⟨hentered.mono hafter.subset, ihafter⟩

/-- An instruction is that of a key which was entered on the walk. -/
theorem instruction (h : PostOrder graph seen keys seen' out) :
    ∀ i ∈ out, ¬ Passed seen i.key ∧ i.key ∈ seen' ∧
      ∃ node, graph.node? i.key = some node ∧ i = .ofNode i.key node := by
  induction h with
  | done => exact fun _ hi => by cases hi
  | pass _ _ ih => exact ih
  | absent _ _ _ ih =>
    intro i hi
    obtain ⟨hnot, hrest⟩ := ih i hi
    exact ⟨fun hpass => hnot (hpass.mono (List.subset_cons_self _ _)), hrest⟩
  | visit hnot hnode hbefore hafter ihbefore ihafter =>
    intro i hi
    rcases List.mem_append.1 hi with hi | hi
    · obtain ⟨hnot, hmem, hrest⟩ := ihbefore i hi
      exact ⟨fun hpass => hnot (hpass.mono (List.subset_cons_self _ _)), hafter.subset hmem, hrest⟩
    · rcases List.mem_cons.1 hi with rfl | hi
      · exact ⟨hnot, hafter.subset (hbefore.subset List.mem_cons_self), _, hnode, rfl⟩
      · obtain ⟨hnot, hrest⟩ := ihafter i hi
        have hsub := List.Subset.trans (List.subset_cons_self _ _) hbefore.subset
        exact ⟨fun hpass => hnot (hpass.mono hsub), hrest⟩

/-- A provided key that was entered on the walk has an instruction. -/
theorem entered (h : PostOrder graph seen keys seen' out) :
    ∀ key ∈ seen', graph.contains key = true → key ∈ seen ∨ ∃ i ∈ out, i.key = key := by
  induction h with
  | done => exact fun _ hkey _ => Or.inl hkey
  | pass _ _ ih => exact ih
  | absent _ hnone _ ih =>
    intro key hkey hprovided
    rcases ih key hkey hprovided with hkey | hout
    · rcases List.mem_cons.1 hkey with rfl | hkey
      · obtain ⟨node, hnode⟩ := Graph.contains_iff_node?.1 hprovided
        rw [hnone] at hnode
        cases hnode
      · exact Or.inl hkey
    · exact Or.inr hout
  | visit _ _ _ _ ihbefore ihafter =>
    intro key hkey hprovided
    rcases ihafter key hkey hprovided with hkey | ⟨i, hi, hsame⟩
    · rcases ihbefore key hkey hprovided with hkey | ⟨i, hi, hsame⟩
      · rcases List.mem_cons.1 hkey with rfl | hkey
        · exact Or.inr ⟨_, List.mem_append_right _ List.mem_cons_self, rfl⟩
        · exact Or.inl hkey
      · exact Or.inr ⟨i, List.mem_append_left _ hi, hsame⟩
    · exact Or.inr ⟨i, List.mem_append_right _ (List.mem_cons_of_mem _ hi), hsame⟩

/-- No key has two instructions. -/
theorem distinct (h : PostOrder graph seen keys seen' out) :
    out.Pairwise fun i j => (i.key == j.key) = false := by
  induction h with
  | done => exact .nil
  | pass _ _ ih => exact ih
  | absent _ _ _ ih => exact ih
  | @visit _ inner _ _ _ _ _ after _ _ hbefore hafter ihbefore ihafter =>
    -- what was entered before is not entered again
    have hother : ∀ k ∈ inner, ∀ j ∈ after, (k == j.key) = false := fun k hk j hj => by
      rw [← Bool.not_eq_true]
      exact fun hsame => (hafter.instruction j hj).1 (Or.inr ⟨k, hk, hsame⟩)
    refine List.pairwise_append.2 ⟨ihbefore, List.pairwise_cons.2 ⟨?_, ihafter⟩, ?_⟩
    · exact hother _ (hbefore.subset List.mem_cons_self)
    · intro i hi j hj
      rcases List.mem_cons.1 hj with rfl | hj
      · rw [← Bool.not_eq_true, BEq.comm]
        exact fun hsame => (hbefore.instruction i hi).1 (Or.inr ⟨_, List.mem_cons_self, hsame⟩)
      · exact hother _ (hbefore.instruction i hi).2.1 j hj

end PostOrder

/-! ## Order -/

/-- Every instruction comes after those of its eager dependencies but the injector. -/
def Ordered (instructions : List Instruction) : Prop :=
  ∀ before i after, instructions = before ++ i :: after →
    ∀ d ∈ i.dependencies, (d == .injector) = false → ∃ b ∈ before, (b.key == d) = true

theorem Ordered.nil : Ordered [] := fun before i after h => by simp at h

theorem Ordered.concat {instructions : List Instruction} {i : Instruction}
    (h : Ordered instructions)
    (hi : ∀ d ∈ i.dependencies, (d == .injector) = false →
      ∃ b ∈ instructions, (b.key == d) = true) : Ordered (instructions ++ [i]) := by
  intro before j after hsplit
  rcases List.eq_nil_or_concat after with rfl | ⟨after, last, rfl⟩
  · obtain ⟨rfl, hlast⟩ := List.append_inj' hsplit rfl
    obtain rfl : i = j := by simpa using hlast
    exact hi
  · rw [List.concat_eq_append, ← List.cons_append, ← List.append_assoc] at hsplit
    exact h before j after (List.append_inj' hsplit rfl).1

theorem Ordered.of_concat {instructions : List Instruction} {i : Instruction}
    (h : Ordered (instructions ++ [i])) :
    Ordered instructions ∧ ∀ d ∈ i.dependencies, (d == .injector) = false →
      ∃ b ∈ instructions, (b.key == d) = true := by
  refine ⟨fun before j after hsplit => h before j (after ++ [i]) ?_, h instructions i [] rfl⟩
  rw [hsplit, List.append_assoc, List.cons_append]

/-- What is known of the keys that a walk met before it goes through others: a provided one has its
    instruction, or it is on the path and needs, at some remove, all keys to come. -/
def Placed (graph : Graph) (done : List Instruction) (seen keys : List Key) : Prop :=
  ∀ k ∈ seen, graph.contains k = true →
    (∃ i ∈ done, i.key = k) ∨ ∀ key ∈ keys, TransGen graph.Needs k key

namespace Placed

variable {graph : Graph} {done before : List Instruction} {seen inner keys : List Key} {key : Key}
  {node : Graph.Node}

theorem tail (h : Placed graph done seen (key :: keys)) : Placed graph done seen keys :=
  fun k hk hprovided => (h k hk hprovided).imp_right fun hneeds key' hkey' =>
    hneeds key' (List.mem_cons_of_mem _ hkey')

theorem absent (h : Placed graph done seen keys) (hnone : graph.node? key = none) :
    Placed graph done (key :: seen) keys := by
  intro k hk hprovided
  rcases List.mem_cons.1 hk with rfl | hk
  · obtain ⟨node, hnode⟩ := Graph.contains_iff_node?.1 hprovided
    rw [hnone] at hnode
    cases hnode
  · exact h k hk hprovided

/-- A key that is entered needs its eager dependencies, and so do those that need this key. -/
theorem enter (h : Placed graph done seen (key :: keys))
    (hneed : ∀ d ∈ node.eager, graph.Needs key d) :
    Placed graph done (key :: seen) node.eager := by
  intro k hk hprovided
  rcases List.mem_cons.1 hk with rfl | hk
  · exact Or.inr fun d hd => .single (hneed d hd)
  · exact (h k hk hprovided).imp_right fun hneeds d hd =>
      .tail (hneeds key List.mem_cons_self) (hneed d hd)

/-- After the walk through its eager dependencies a key gets its instruction. -/
theorem leave (h : Placed graph done seen (key :: keys))
    (hbefore : PostOrder graph (key :: seen) node.eager inner before) :
    Placed graph (done ++ before ++ [.ofNode key node]) inner keys := by
  intro k hk hprovided
  rcases hbefore.entered k hk hprovided with hk | ⟨i, hi, rfl⟩
  · rcases List.mem_cons.1 hk with rfl | hk
    · exact Or.inl ⟨.ofNode k node, by simp, rfl⟩
    · rcases h.tail k hk hprovided with ⟨i, hi, rfl⟩ | hneeds
      · exact Or.inl ⟨i, by simp [hi], rfl⟩
      · exact Or.inr hneeds
  · exact Or.inl ⟨i, by simp [hi], rfl⟩

/-- After the walk through its eager dependencies a key finds their instructions: one still on the
    path would need itself. -/
theorem earlier (h : Placed graph done seen (key :: keys)) (hacyclic : graph.Acyclic)
    (hbefore : PostOrder graph (key :: seen) node.eager inner before) {d : Key}
    (hd : d ∈ node.eager) (hneed : graph.Needs key d) (hprovided : graph.contains d = true)
    (hinjector : (d == .injector) = false) : ∃ b ∈ done ++ before, (b.key == d) = true := by
  obtain ⟨k, hk, hsame⟩ : ∃ k ∈ inner, (k == d) = true :=
    (hbefore.passed d hd).resolve_left (by simp [hinjector])
  have hk' : graph.contains k = true := (Graph.contains_congr hsame).trans hprovided
  rcases hbefore.entered k hk hk' with hk | ⟨i, hi, rfl⟩
  · rcases List.mem_cons.1 hk with rfl | hk
    · exact absurd (.single (hneed.congr BEq.rfl (BEq.symm hsame))) (hacyclic k)
    · rcases h k hk hk' with ⟨i, hi, rfl⟩ | hneeds
      · exact ⟨i, List.mem_append_left _ hi, hsame⟩
      · have hcycle := (hneeds key List.mem_cons_self).tail hneed
        exact absurd (Graph.Needs.trans_congr_right hcycle (BEq.symm hsame)) (hacyclic k)
  · exact ⟨i, List.mem_append_right _ hi, hsame⟩

end Placed

/-- The walk keeps instructions in order. -/
theorem PostOrder.ordered {graph : Graph} (hacyclic : graph.Acyclic)
    (hclosed : ∀ a b, graph.Needs a b → graph.contains b = true) {seen keys seen' : List Key}
    {out : List Instruction} (h : PostOrder graph seen keys seen' out) :
    ∀ {done : List Instruction},
      Placed graph done seen keys → Ordered done → Ordered (done ++ out) := by
  induction h with
  | done => exact fun _ hdone => by simpa using hdone
  | pass _ _ ih => exact fun hplaced hdone => ih hplaced.tail hdone
  | absent _ hnone _ ih => exact fun hplaced hdone => ih (hplaced.tail.absent hnone) hdone
  | @visit seen inner seen' key keys node before after hnot hnode hbefore hafter ihbefore
      ihafter =>
    intro done hplaced hdone
    have hneed : ∀ d ∈ node.eager, graph.Needs key d := fun d hd =>
      .of_mem (by rwa [Graph.eager_of_node? hnode])
    have hdeps : Ordered (done ++ before) := ihbefore (hplaced.enter hneed) hdone
    have hself : Ordered ((done ++ before) ++ [.ofNode key node]) :=
      hdeps.concat fun d hd hinjector =>
        hplaced.earlier hacyclic hbefore hd (hneed d hd) (hclosed key d (hneed d hd)) hinjector
    rw [show done ++ (before ++ .ofNode key node :: after) =
      (done ++ before ++ [.ofNode key node]) ++ after by simp]
    exact ihafter (hplaced.leave hbefore) hself

end Plan

end Injection
