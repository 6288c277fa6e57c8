/-
  The steps of the search for cycles, and what they keep.

  * `Move` lists the steps by what they do, `move_step` shows that there are no
    others;
  * `Coloured`: the gray keys are those of the path, the path is a walk of eager
    dependencies, and dependencies that were followed lead to entered keys;
  * `Claimed`: what is reported takes part in a cycle, once, and a key of the
    path is reported or still to be claimed;
  * `Finished`: a key is left after all its eager dependencies but those that are
    exposed, as parts of cycles whose keys are all reported.
-/
import Injection.Graph.Cycle
import Injection.Proofs.Graph
import Mathlib.Data.List.Chain
import Mathlib.Data.List.TakeDrop

namespace Injection

open Relation

namespace Graph.CycleSearch

variable {graph : Graph}

/-! ## The steps -/

/-- A state in which a key was entered from the end of the path. -/
def State.enter (graph : Graph) (state : State) (key : Key) : State :=
  let place := nextPlace state.path
  { state with
    entered := state.entered.insertNew key place
    path := ⟨key, place, graph.eager key⟩ :: state.path
    unclaimed := (place, key) :: state.unclaimed }

/-- The steps of the search. -/
inductive Move (graph : Graph) : State → State → Prop
  | stay {entered explored unclaimed participants} :
    Move graph ⟨entered, explored, [], unclaimed, participants, []⟩
      ⟨entered, explored, [], unclaimed, participants, []⟩
  | skip {entered explored unclaimed participants root roots} :
    entered.contains root = true →
    Move graph ⟨entered, explored, [], unclaimed, participants, root :: roots⟩
      ⟨entered, explored, [], unclaimed, participants, roots⟩
  | start {entered explored unclaimed participants root roots} :
    entered.contains root = false →
    Move graph ⟨entered, explored, [], unclaimed, participants, root :: roots⟩
      (State.enter graph ⟨entered, explored, [], [], participants, roots⟩ root)
  | leave {entered explored key place rest unclaimed participants roots} :
    Move graph ⟨entered, explored, ⟨key, place, []⟩ :: rest, unclaimed, participants, roots⟩
      ⟨entered, explored.add key, rest, (splitFrom place unclaimed).2, participants, roots⟩
  | enter {entered explored key place d pending rest unclaimed participants roots} :
    entered.contains d = false →
    Move graph
      ⟨entered, explored, ⟨key, place, d :: pending⟩ :: rest, unclaimed, participants, roots⟩
      (State.enter graph
        ⟨entered, explored, ⟨key, place, pending⟩ :: rest, unclaimed, participants, roots⟩ d)
  | pass {entered explored key place d pending rest unclaimed participants roots} :
    entered.contains d = true → explored.contains d = true →
    Move graph
      ⟨entered, explored, ⟨key, place, d :: pending⟩ :: rest, unclaimed, participants, roots⟩
      ⟨entered, explored, ⟨key, place, pending⟩ :: rest, unclaimed, participants, roots⟩
  | close {entered explored key place d entry pending rest unclaimed participants roots} :
    entered.get? d = some entry → explored.contains d = false →
    Move graph
      ⟨entered, explored, ⟨key, place, d :: pending⟩ :: rest, unclaimed, participants, roots⟩
      ⟨entered, explored, ⟨key, place, pending⟩ :: rest, (splitFrom entry unclaimed).2,
        participants ++ ((splitFrom entry unclaimed).1.map (·.2)).reverse, roots⟩

theorem move_step (state : State) : Move graph state (step graph state) := by
  obtain ⟨entered, explored, path, unclaimed, participants, roots⟩ := state
  rcases path with _ | ⟨⟨key, place, _ | ⟨d, pending⟩⟩, rest⟩
  · cases roots with
    | nil => exact .stay
    | cons root roots =>
      cases hroot : entered.contains root with
      | true => simpa [step, hroot] using Move.skip hroot
      | false => simpa [step, hroot, State.enter, nextPlace] using Move.start hroot
  · exact .leave
  · cases hget : entered.get? d with
    | none =>
      have hnew : entered.contains d = false := by simp [SlotTable.contains, hget]
      simpa [step, hget, State.enter] using Move.enter hnew
    | some entry =>
      have hold : entered.contains d = true := SlotTable.contains_of_get? hget
      cases hexplored : explored.contains d with
      | true => simpa [step, hget, hexplored] using Move.pass hold hexplored
      | false => simpa [step, hget, hexplored] using Move.close hget hexplored

/-- The keys of a path with their places. -/
def spots (path : List Frame) : List (Nat × Key) := path.map fun frame => (frame.place, frame.key)

@[simp] theorem spots_nil : spots [] = [] := rfl

@[simp] theorem spots_cons (frame : Frame) (path : List Frame) :
    spots (frame :: path) = (frame.place, frame.key) :: spots path := rfl

/-- If the next dependency of a key of the path is as the followed ones are, it can be followed. -/
theorem followed_advance {P : Nat × Key → Key → Prop} {above rest : List Frame} {key d : Key}
    {place : Nat} {pending : List Key}
    (h : ∀ frame ∈ above ++ ⟨key, place, d :: pending⟩ :: rest,
      ∃ done, graph.eager frame.key = done ++ frame.pending ∧
        ∀ d' ∈ done, P (frame.place, frame.key) d')
    (hd : P (place, key) d) :
    ∀ frame ∈ above ++ ⟨key, place, pending⟩ :: rest,
      ∃ done, graph.eager frame.key = done ++ frame.pending ∧
        ∀ d' ∈ done, P (frame.place, frame.key) d' := by
  intro frame hframe
  rcases List.mem_append.1 hframe with hframe | hframe
  · exact h frame (by simp [hframe])
  · rcases List.mem_cons.1 hframe with rfl | hframe
    · obtain ⟨done, heager, hdone⟩ := h ⟨key, place, d :: pending⟩ (by simp)
      refine ⟨done ++ [d], by simpa using heager, fun d' hd' => ?_⟩
      rcases List.mem_append.1 hd' with hd' | hd'
      · exact hdone d' hd'
      · rwa [List.mem_singleton.1 hd']
    · exact h frame (by simp [hframe])

/-! ## Colours -/

/-- What holds of the colours and the path. -/
structure Coloured (graph : Graph) (entered : SlotTable Key Nat) (explored : KeySet)
    (path : List Frame) : Prop where
  entered_wf : entered.WellFormed
  explored_wf : explored.WellFormed
  entered_of_explored : ∀ {key}, explored.contains key = true → entered.contains key = true
  /-- A gray key stands on the path. -/
  gray : ∀ {key}, entered.contains key = true → explored.contains key = false →
    ∃ spot ∈ spots path, (spot.2 == key) = true
  /-- A key of the path is gray and has its place. -/
  spot : ∀ {place key}, (place, key) ∈ spots path →
    entered.get? key = some place ∧ explored.contains key = false
  /-- Each key of the path needs the next one, which has the next place. -/
  chain : (spots path).IsChain fun upper lower =>
    upper.1 = lower.1 + 1 ∧ graph.Needs lower.2 upper.2
  /-- The dependencies that were followed are entered. -/
  followed : ∀ frame ∈ path, ∃ done, graph.eager frame.key = done ++ frame.pending ∧
    ∀ d ∈ done, entered.contains d = true
  /-- The dependencies of a black key are entered. -/
  closed : ∀ {key}, explored.contains key = true → ∀ d ∈ graph.eager key,
    entered.contains d = true

namespace Coloured

variable {entered : SlotTable Key Nat} {explored : KeySet} {path : List Frame}

theorem nil : Coloured graph .empty .empty [] where
  entered_wf := .empty
  explored_wf := .empty
  entered_of_explored h := by simp at h
  gray h := by simp at h
  spot h := by cases h
  chain := .nil
  followed _ h := by cases h
  closed h := by simp at h

/-- The path is a walk: a key with a higher place is reached from one with a lower place. -/
theorem walk (h : Coloured graph entered explored path) :
    (spots path).Pairwise fun upper lower =>
      lower.1 < upper.1 ∧ TransGen graph.Needs lower.2 upper.2 := by
  have htrans : IsTrans (Nat × Key) fun upper lower =>
      lower.1 < upper.1 ∧ TransGen graph.Needs lower.2 upper.2 :=
    ⟨fun _ _ _ hab hbc => ⟨hbc.1.trans hab.1, hbc.2.trans hab.2⟩⟩
  exact List.isChain_iff_pairwise.1 (h.chain.imp fun _ _ hstep => ⟨by omega, .single hstep.2⟩)

/-- From a key of the path the walk leads on to every key with a higher place. -/
theorem reaches (h : Coloured graph entered explored path) {lower upper : Nat × Key}
    (hlower : lower ∈ spots path) (hupper : upper ∈ spots path) (hle : lower.1 ≤ upper.1) :
    lower = upper ∨ TransGen graph.Needs lower.2 upper.2 := by
  have hwalk := List.pairwise_iff_getElem.1 h.walk
  obtain ⟨i, hi, rfl⟩ := List.getElem_of_mem hlower
  obtain ⟨j, hj, rfl⟩ := List.getElem_of_mem hupper
  rcases Nat.lt_trichotomy i j with hlt | rfl | hlt
  · have := (hwalk i j hi hj hlt).1
    omega
  · exact Or.inl rfl
  · exact Or.inr (hwalk j i hj hi hlt).2

/-- From some place on the path is a walk through keys among some, if its keys from there on are. -/
theorem walk_within (h : Coloured graph entered explored path) {keys : List Key} {low : Nat}
    (hkeys : ∀ spot ∈ spots path, low ≤ spot.1 → Key.Among keys spot.2) :
    (spots path).Pairwise fun upper lower =>
      lower.1 < upper.1 ∧ (low ≤ lower.1 → TransGen (graph.NeedsWithin keys) lower.2 upper.2) := by
  have htrans : IsTrans (Nat × Key) fun upper lower => lower.1 < upper.1 ∧
      (low ≤ lower.1 → TransGen (graph.NeedsWithin keys) lower.2 upper.2) :=
    ⟨fun _ _ _ hab hbc => ⟨hbc.1.trans hab.1,
      fun hle => (hbc.2 hle).trans (hab.2 (hle.trans hbc.1.le))⟩⟩
  refine List.isChain_iff_pairwise.1 (h.chain.imp_of_mem_imp ?_)
  rintro upper lower hupper hlower ⟨hnext, hneeds⟩
  refine ⟨by omega, fun hle => .single ⟨hneeds, hkeys lower hlower hle, hkeys upper hupper ?_⟩⟩
  omega

/-- A followed dependency that is entered can be taken off the pending ones. -/
theorem advance (above : List Frame) {rest : List Frame} {key d : Key} {place : Nat}
    {pending : List Key}
    (h : Coloured graph entered explored (above ++ ⟨key, place, d :: pending⟩ :: rest))
    (hd : entered.contains d = true) :
    Coloured graph entered explored (above ++ ⟨key, place, pending⟩ :: rest) := by
  have hspots : spots (above ++ ⟨key, place, pending⟩ :: rest) =
      spots (above ++ ⟨key, place, d :: pending⟩ :: rest) := by simp [spots]
  exact ⟨h.entered_wf, h.explored_wf, h.entered_of_explored, hspots ▸ h.gray, hspots ▸ h.spot,
    hspots ▸ h.chain, followed_advance (P := fun _ d => entered.contains d = true) h.followed hd,
    h.closed⟩

/-- A key that is entered stands at the end of the path. -/
theorem push (h : Coloured graph entered explored path) {key : Key}
    (hnew : entered.contains key = false)
    (hneeds : ∀ frame ∈ path.head?, graph.Needs frame.key key) :
    Coloured graph (entered.insertNew key (nextPlace path)) explored
      (⟨key, nextPlace path, graph.eager key⟩ :: path) := by
  have hwf := h.entered_wf.insertNew key (nextPlace path)
  have hcontains := h.entered_wf.contains_insertNew key (nextPlace path)
  have hget := h.entered_wf.get?_insertNew hnew (nextPlace path)
  have hgrow : ∀ {k}, entered.contains k = true →
      (entered.insertNew key (nextPlace path)).contains k = true := fun hk => by
    rw [hcontains, hk, Bool.true_or]
  refine ⟨hwf, h.explored_wf, fun hk => hgrow (h.entered_of_explored hk), fun {k} hk hblack => ?_,
    fun {place k} hk => ?_, ?_, fun frame hframe => ?_, fun hk d hd => hgrow (h.closed hk d hd)⟩
  · rw [hcontains, Bool.or_eq_true] at hk
    rcases hk with hk | hk
    · obtain ⟨spot, hspot, hsame⟩ := h.gray hk hblack
      exact ⟨spot, List.mem_cons_of_mem _ hspot, hsame⟩
    · exact ⟨_, List.mem_cons_self, hk⟩
  · rcases List.mem_cons.1 hk with hk | hk
    · obtain ⟨rfl, rfl⟩ := Prod.mk.inj hk
      refine ⟨by rw [hget, if_pos BEq.rfl], ?_⟩
      rw [← Bool.not_eq_true]
      intro hblack
      rw [h.entered_of_explored hblack] at hnew
      cases hnew
    · obtain ⟨hplace, hblack⟩ := h.spot hk
      have hother : (key == k) = false := by
        rw [BEq.comm]
        exact h.entered_wf.beq_eq_false (SlotTable.contains_of_get? hplace) hnew
      exact ⟨by rw [hget, if_neg (Bool.eq_false_iff.1 hother), hplace], hblack⟩
  · cases path with
    | nil => exact .singleton _
    | cons frame path => exact .cons_cons ⟨rfl, hneeds frame rfl⟩ h.chain
  · rcases List.mem_cons.1 hframe with rfl | hframe
    · exact ⟨[], rfl, by simp⟩
    · obtain ⟨done, heager, hdone⟩ := h.followed frame hframe
      exact ⟨done, heager, fun d hd => hgrow (hdone d hd)⟩

/-- A key without pending dependencies turns black when it is left. -/
theorem leave {key : Key} {place : Nat} {rest : List Frame}
    (h : Coloured graph entered explored (⟨key, place, []⟩ :: rest)) :
    Coloured graph entered (explored.add key) rest := by
  obtain ⟨hplace, hgray⟩ : entered.get? key = some place ∧ explored.contains key = false :=
    h.spot List.mem_cons_self
  have hcontains := KeySet.contains_add h.explored_wf key
  have hentered : entered.contains key = true := SlotTable.contains_of_get? hplace
  refine ⟨h.entered_wf, h.explored_wf.insertNew key (), fun {k} hk => ?_, fun {k} hk hblack => ?_,
    fun {place' k} hk => ?_, ?_, fun frame hframe => ?_, fun {k} hk d hd => ?_⟩
  · rw [hcontains, Bool.or_eq_true] at hk
    rcases hk with hk | hk
    · exact h.entered_of_explored hk
    · rwa [← h.entered_wf.contains_congr hk]
  · rw [hcontains, Bool.or_eq_false_iff] at hblack
    obtain ⟨spot, hspot, hsame⟩ := h.gray hk hblack.1
    rcases List.mem_cons.1 hspot with rfl | hspot
    · rw [hsame] at hblack
      cases hblack.2
    · exact ⟨spot, hspot, hsame⟩
  · obtain ⟨hplace', hblack⟩ := h.spot (List.mem_cons_of_mem _ hk)
    refine ⟨hplace', ?_⟩
    rw [hcontains, hblack, Bool.false_or, ← Bool.not_eq_true]
    intro hsame
    -- equal keys have one place, but places on a path are different
    have hlt : place' < place := (List.rel_of_pairwise_cons h.walk hk).1
    rw [← h.entered_wf.get?_congr hsame, hplace, Option.some.injEq] at hplace'
    exact absurd hplace' (by omega)
  · exact h.chain.tail
  · exact h.followed frame (List.mem_cons_of_mem _ hframe)
  · rw [hcontains, Bool.or_eq_true] at hk
    rcases hk with hk | hk
    · exact h.closed hk d hd
    · obtain ⟨done, heager, hdone⟩ := h.followed _ List.mem_cons_self
      rw [← eager_congr hk, heager, List.append_nil] at hd
      exact hdone d hd

end Coloured

/-! ## Reports -/

/-- The unclaimed keys of a path, split at a place. -/
theorem splitFrom_eq (place : Nat) {unclaimed : List (Nat × Key)}
    (h : unclaimed.Pairwise fun upper lower => lower.1 < upper.1) :
    splitFrom place unclaimed =
      (unclaimed.filter fun spot => place ≤ spot.1,
        unclaimed.filter fun spot => spot.1 < place) := by
  rw [splitFrom, List.span_eq_takeWhile_dropWhile]
  induction unclaimed with
  | nil => rfl
  | cons spot unclaimed ih =>
    obtain ⟨hspot, h⟩ := List.pairwise_cons.1 h
    obtain ⟨htake, hdrop⟩ := Prod.mk.inj (ih h)
    by_cases hle : place ≤ spot.1
    · simp [hle, htake, hdrop, Nat.not_lt.2 hle]
    · -- all other keys stand lower still
      have hall : ∀ other ∈ unclaimed, other.1 < place := fun other hother => by
        have := hspot other hother
        omega
      have hnone : unclaimed.filter (fun spot => place ≤ spot.1) = [] :=
        List.filter_eq_nil_iff.2 fun other hother => by have := hall other hother; simp; omega
      have hself : unclaimed.filter (fun spot => spot.1 < place) = unclaimed :=
        List.filter_eq_self.2 fun other hother => by simpa using hall other hother
      simp [hle, hnone, hself, Nat.not_le.1 hle]

/-- What holds of the keys reported and those still to be claimed. -/
structure Claimed (graph : Graph) (entered : SlotTable Key Nat) (path : List Frame)
    (unclaimed : List (Nat × Key)) (participants : List Key) : Prop where
  sublist : unclaimed.Sublist (spots path)
  /-- A key of the path is unclaimed or reported. -/
  covered : ∀ spot ∈ spots path, spot ∈ unclaimed ∨ ∃ k ∈ participants, (k == spot.2) = true
  distinct : (participants ++ unclaimed.map (·.2)).Pairwise fun a b => (a == b) = false
  entered : ∀ k ∈ participants, entered.contains k = true
  /-- A reported key takes part in a cycle. -/
  cyclic : ∀ k ∈ participants, TransGen graph.Needs k k

namespace Claimed

variable {entered : SlotTable Key Nat} {explored : KeySet} {path : List Frame}
  {unclaimed : List (Nat × Key)} {participants : List Key}

theorem nil : Claimed graph entered [] [] [] where
  sublist := .slnil
  covered := by simp
  distinct := by simp
  entered := by simp
  cyclic := by simp

theorem congr {path' : List Frame} (h : Claimed graph entered path unclaimed participants)
    (hspots : spots path' = spots path) :
    Claimed graph entered path' unclaimed participants :=
  ⟨hspots ▸ h.sublist, hspots ▸ h.covered, h.distinct, h.entered, h.cyclic⟩

/-- The unclaimed keys stand in the order of the path. -/
theorem sorted (h : Claimed graph entered path unclaimed participants)
    (hc : Coloured graph entered explored path) :
    unclaimed.Pairwise fun upper lower => lower.1 < upper.1 :=
  (hc.walk.imp fun hwalk => hwalk.1).sublist h.sublist

/-- A key that is entered is unclaimed. -/
theorem push (h : Claimed graph entered path unclaimed participants)
    (hc : Coloured graph entered explored path) {key : Key}
    (hnew : entered.contains key = false) :
    Claimed graph (entered.insertNew key (nextPlace path))
      (⟨key, nextPlace path, graph.eager key⟩ :: path) ((nextPlace path, key) :: unclaimed)
      participants := by
  have hcontains := hc.entered_wf.contains_insertNew key (nextPlace path)
  have hother : ∀ {k}, entered.contains k = true → (k == key) = false := fun hk =>
    hc.entered_wf.beq_eq_false hk hnew
  refine ⟨h.sublist.cons_cons _, fun spot hspot => ?_, ?_, fun k hk => ?_, h.cyclic⟩
  · rcases List.mem_cons.1 hspot with rfl | hspot
    · exact Or.inl List.mem_cons_self
    · exact (h.covered spot hspot).imp_left (List.mem_cons_of_mem _)
  · rw [List.map_cons, List.perm_middle.pairwise_iff (fun hab => by rwa [BEq.comm])]
    refine List.pairwise_cons.2 ⟨fun k hk => ?_, h.distinct⟩
    rw [BEq.comm]
    rcases List.mem_append.1 hk with hk | hk
    · exact hother (h.entered k hk)
    · obtain ⟨spot, hspot, rfl⟩ := List.mem_map.1 hk
      have hplace := (hc.spot (h.sublist.subset hspot)).1
      exact hother (SlotTable.contains_of_get? hplace)
  · rw [hcontains, h.entered k hk, Bool.true_or]

/-- A key that is left is claimed no more. -/
theorem leave {key : Key} {place : Nat} {rest : List Frame}
    (h : Claimed graph entered (⟨key, place, []⟩ :: rest) unclaimed participants)
    (hc : Coloured graph entered explored (⟨key, place, []⟩ :: rest)) :
    Claimed graph entered rest (splitFrom place unclaimed).2 participants := by
  have hlower : ∀ spot ∈ spots rest, spot.1 < place := fun spot hspot =>
    (List.rel_of_pairwise_cons hc.walk hspot).1
  rw [splitFrom_eq place (h.sorted hc)]
  refine ⟨?_, fun spot hspot => ?_, ?_, h.entered, h.cyclic⟩
  · have hsub := h.sublist.filter fun spot => decide (spot.1 < place)
    have hrest : (spots rest).filter (fun spot => spot.1 < place) = spots rest :=
      List.filter_eq_self.2 fun spot hspot => by simpa using hlower spot hspot
    simpa [hrest] using hsub
  · refine (h.covered spot (List.mem_cons_of_mem _ hspot)).imp_left fun hmem => ?_
    exact List.mem_filter.2 ⟨hmem, by simpa using hlower spot hspot⟩
  · exact h.distinct.sublist (List.Sublist.append_left ((List.filter_sublist).map _) _)

/-- A dependency on a gray key closes a cycle through all keys of the path from that key on. -/
theorem cyclic_of_gray (hc : Coloured graph entered explored path) {d top : Key} {place entry : Nat}
    (htop : (spots path).head? = some (place, top)) (hneeds : graph.Needs top d)
    (hentry : entered.get? d = some entry) (hgray : explored.contains d = false) :
    (∃ k, (entry, k) ∈ spots path ∧ (k == d) = true) ∧
      ∀ spot ∈ spots path, entry ≤ spot.1 → TransGen graph.Needs spot.2 spot.2 := by
  obtain ⟨⟨entry', k⟩, hk, hkd⟩ := hc.gray (SlotTable.contains_of_get? hentry) hgray
  have hplace := (hc.spot hk).1
  rw [hc.entered_wf.get?_congr hkd, hentry] at hplace
  obtain rfl := Option.some.inj hplace
  refine ⟨⟨k, hk, hkd⟩, fun spot hspot hle => ?_⟩
  obtain ⟨rest, hrest⟩ := List.head?_eq_some_iff.1 htop
  have hwalk := hc.walk
  -- from the key to the end of the path, then by the dependency back to the gray key
  have hdown : TransGen graph.Needs spot.2 d := by
    rw [hrest] at hspot hwalk
    rcases List.mem_cons.1 hspot with rfl | hspot
    · exact .single hneeds
    · exact .tail (List.rel_of_pairwise_cons hwalk hspot).2 hneeds
  rcases hc.reaches hk hspot hle with rfl | hback
  · exact Needs.trans_congr_right hdown (BEq.symm hkd)
  · exact hdown.trans (Needs.trans_congr_left hback hkd)

/-- If all keys of the path from a gray key on are among some, the dependency of the last key on
    that gray key is exposed by them. -/
theorem exposed_of_gray (hc : Coloured graph entered explored path) {keys : List Key} {d top : Key}
    {place entry : Nat} (htop : (spots path).head? = some (place, top))
    (hneeds : graph.Needs top d) (hentry : entered.get? d = some entry)
    (hgray : explored.contains d = false)
    (hkeys : ∀ spot ∈ spots path, entry ≤ spot.1 → Key.Among keys spot.2) :
    graph.Exposed keys top d := by
  obtain ⟨⟨k, hk, hkd⟩, -⟩ := cyclic_of_gray hc htop hneeds hentry hgray
  obtain ⟨rest, hrest⟩ := List.head?_eq_some_iff.1 htop
  have htopmem : (place, top) ∈ spots path := hrest ▸ List.mem_cons_self
  have hwalk := hc.walk_within hkeys
  have hwithin : entry ≤ place → graph.NeedsWithin keys top d := fun hle =>
    ⟨hneeds, hkeys _ htopmem hle, (hkeys _ hk (Nat.le_refl entry)).congr hkd⟩
  rw [hrest] at hk hwalk
  rcases List.mem_cons.1 hk with hk | hk
  · -- the gray key is the last one itself
    obtain ⟨rfl, rfl⟩ := Prod.mk.inj hk
    have hself := hwithin (Nat.le_refl entry)
    exact ⟨hself, .single (hself.congr hkd (BEq.symm hkd))⟩
  · obtain ⟨hlt, hback⟩ := List.rel_of_pairwise_cons hwalk hk
    refine ⟨hwithin hlt.le, ?_⟩
    exact Key.Respects.transGen NeedsWithin.congr (hback (Nat.le_refl entry)) hkd BEq.rfl

/-- A dependency on a gray key claims the keys of the path from that key on, and is exposed by
    them. -/
theorem close (h : Claimed graph entered path unclaimed participants)
    (hc : Coloured graph entered explored path) {d top : Key} {place entry : Nat}
    (htop : (spots path).head? = some (place, top)) (hneeds : graph.Needs top d)
    (hentry : entered.get? d = some entry) (hgray : explored.contains d = false) :
    Claimed graph entered path (splitFrom entry unclaimed).2
        (participants ++ ((splitFrom entry unclaimed).1.map (·.2)).reverse) ∧
      graph.Exposed (participants ++ ((splitFrom entry unclaimed).1.map (·.2)).reverse) top d := by
  obtain ⟨-, hcycle⟩ := cyclic_of_gray hc htop hneeds hentry hgray
  rw [splitFrom_eq entry (h.sorted hc)]
  have hclaimed : Claimed graph entered path (unclaimed.filter fun spot => spot.1 < entry)
      (participants ++ ((unclaimed.filter fun spot => entry ≤ spot.1).map (·.2)).reverse) := by
    refine ⟨List.filter_sublist.trans h.sublist, fun spot hspot => ?_, ?_, fun k hk => ?_,
      fun k hk => ?_⟩
    · rcases h.covered spot hspot with hmem | ⟨k, hk, hsame⟩
      · by_cases hle : entry ≤ spot.1
        · refine Or.inr ⟨spot.2, List.mem_append_right _ ?_, BEq.rfl⟩
          rw [List.mem_reverse]
          exact List.mem_map_of_mem (List.mem_filter.2 ⟨hmem, by simpa using hle⟩)
        · exact Or.inl (List.mem_filter.2 ⟨hmem, by simpa using hle⟩)
      · exact Or.inr ⟨k, List.mem_append_left _ hk, hsame⟩
    · have hperm : (unclaimed.filter (fun spot => entry ≤ spot.1) ++
          unclaimed.filter fun spot => spot.1 < entry).Perm unclaimed := by
        have := List.filter_append_perm (fun spot : Nat × Key => decide (entry ≤ spot.1)) unclaimed
        simpa only [decide_not, ← Nat.not_le] using this
      refine h.distinct.perm ?_ fun hab => by rwa [BEq.comm]
      rw [List.append_assoc]
      refine List.Perm.append_left _ ((hperm.map (·.2)).symm.trans ?_)
      rw [List.map_append]
      exact List.Perm.append_right _ (List.reverse_perm _).symm
    · rcases List.mem_append.1 hk with hk | hk
      · exact h.entered k hk
      · obtain ⟨spot, hspot, rfl⟩ := List.mem_map.1 (List.mem_reverse.1 hk)
        have hplace := (hc.spot (h.sublist.subset (List.mem_filter.1 hspot).1)).1
        exact SlotTable.contains_of_get? hplace
    · rcases List.mem_append.1 hk with hk | hk
      · exact h.cyclic k hk
      · obtain ⟨spot, hspot, rfl⟩ := List.mem_map.1 (List.mem_reverse.1 hk)
        obtain ⟨hmem, hle⟩ := List.mem_filter.1 hspot
        exact hcycle spot (h.sublist.subset hmem) (by simpa using hle)
  refine ⟨hclaimed, exposed_of_gray hc htop hneeds hentry hgray fun spot hspot hle => ?_⟩
  refine (hclaimed.covered spot hspot).resolve_left fun hmem => ?_
  have hlt : spot.1 < entry := by simpa using (List.mem_filter.1 hmem).2
  exact Nat.not_lt.2 hle hlt

end Claimed

/-! ## Order of exploration -/

/-- What holds of the order of exploration, apart from the dependencies that some keys expose. -/
structure Finished (graph : Graph) (keys : List Key) (explored : KeySet) (path : List Frame) :
    Prop where
  /-- A key turns black after its dependencies. -/
  ordered : ∀ {before key after}, explored.keys = before ++ key :: after →
    ∀ d ∈ graph.eager key, graph.Exposed keys key d ∨ ∃ b ∈ before, (b == d) = true
  /-- A dependency that was followed is black or stands higher on the path. -/
  followed : ∀ frame ∈ path, ∃ done, graph.eager frame.key = done ++ frame.pending ∧
    ∀ d ∈ done, graph.Exposed keys frame.key d ∨ explored.contains d = true ∨
      ∃ spot ∈ spots path, (spot.2 == d) = true ∧ frame.place < spot.1

namespace Finished

variable {entered : SlotTable Key Nat} {explored : KeySet} {path : List Frame} {keys : List Key}

theorem nil : Finished graph keys .empty [] where
  ordered h := by simp [SlotTable.keys, SlotTable.empty, SlotTable.withHasher] at h
  followed _ h := by cases h

/-- More keys expose more. -/
theorem mono {keys' : List Key} (h : Finished graph keys explored path) (hsub : keys ⊆ keys') :
    Finished graph keys' explored path := by
  refine ⟨fun hsplit d hd => (h.ordered hsplit d hd).imp_left fun hexposed => hexposed.mono hsub,
    fun frame hframe => ?_⟩
  obtain ⟨done, heager, hdone⟩ := h.followed frame hframe
  exact ⟨done, heager, fun d hd => (hdone d hd).imp_left fun hexposed => hexposed.mono hsub⟩

theorem push (h : Finished graph keys explored path) (key : Key) :
    Finished graph keys explored (⟨key, nextPlace path, graph.eager key⟩ :: path) := by
  refine ⟨h.ordered, fun frame hframe => ?_⟩
  rcases List.mem_cons.1 hframe with rfl | hframe
  · exact ⟨[], rfl, by simp⟩
  · obtain ⟨done, heager, hdone⟩ := h.followed frame hframe
    refine ⟨done, heager, fun d hd => (hdone d hd).imp_right (Or.imp_right ?_)⟩
    rintro ⟨spot, hspot, hrest⟩
    exact ⟨spot, List.mem_cons_of_mem _ hspot, hrest⟩

/-- A dependency can be taken off the pending ones once it is exposed or black or stands higher. -/
theorem advance (above : List Frame) {rest : List Frame} {key d : Key} {place : Nat}
    {pending : List Key}
    (h : Finished graph keys explored (above ++ ⟨key, place, d :: pending⟩ :: rest))
    (hd : graph.Exposed keys key d ∨ explored.contains d = true ∨
      ∃ spot ∈ spots (above ++ ⟨key, place, pending⟩ :: rest), (spot.2 == d) = true ∧
        place < spot.1) :
    Finished graph keys explored (above ++ ⟨key, place, pending⟩ :: rest) := by
  have hspots : spots (above ++ ⟨key, place, d :: pending⟩ :: rest) =
      spots (above ++ ⟨key, place, pending⟩ :: rest) := by simp [spots]
  have hfollowed := h.followed
  rw [hspots] at hfollowed
  exact ⟨h.ordered, followed_advance (P := fun low d' =>
    graph.Exposed keys low.2 d' ∨ explored.contains d' = true ∨
      ∃ spot ∈ spots (above ++ ⟨key, place, pending⟩ :: rest), (spot.2 == d') = true ∧
        low.1 < spot.1) hfollowed hd⟩

theorem leave {key : Key} {place : Nat} {rest : List Frame}
    (h : Finished graph keys explored (⟨key, place, []⟩ :: rest))
    (hc : Coloured graph entered explored (⟨key, place, []⟩ :: rest)) :
    Finished graph keys (explored.add key) rest := by
  have hcontains := KeySet.contains_add hc.explored_wf key
  have hgray : explored.contains key = false := (hc.spot List.mem_cons_self).2
  have hkeys := KeySet.keys_add hc.explored_wf hgray
  refine ⟨fun {before k after} hsplit d hd => ?_, fun frame hframe => ?_⟩
  · rw [hkeys] at hsplit
    rcases List.eq_nil_or_concat after with rfl | ⟨after, last, rfl⟩
    · -- the key just left: nothing stands higher, so its dependencies are black or exposed
      obtain ⟨rfl, hk⟩ := List.append_inj' hsplit rfl
      obtain rfl : key = k := by simpa using hk
      obtain ⟨done, heager, hdone⟩ := h.followed _ List.mem_cons_self
      rw [heager, List.append_nil] at hd
      rcases hdone d hd with hexposed | hblack | ⟨spot, hspot, -, hlt⟩
      · exact Or.inl hexposed
      · exact Or.inr (hc.explored_wf.contains_iff.1 hblack)
      · rcases List.mem_cons.1 hspot with rfl | hspot
        · exact absurd hlt (Nat.lt_irrefl _)
        · have hlower : spot.1 < place := (List.rel_of_pairwise_cons hc.walk hspot).1
          exact absurd hlt (Nat.not_lt.2 hlower.le)
    · rw [List.concat_eq_append, ← List.cons_append, ← List.append_assoc] at hsplit
      obtain ⟨hsplit, -⟩ := List.append_inj' hsplit rfl
      exact h.ordered hsplit d hd
  · obtain ⟨done, heager, hdone⟩ := h.followed frame (List.mem_cons_of_mem _ hframe)
    refine ⟨done, heager, fun d hd => (hdone d hd).imp_right fun hdone => ?_⟩
    rw [hcontains, Bool.or_eq_true]
    rcases hdone with hblack | ⟨spot, hspot, hsame, hlt⟩
    · exact Or.inl (Or.inl hblack)
    · rcases List.mem_cons.1 hspot with rfl | hspot
      · exact Or.inl (Or.inr hsame)
      · exact Or.inr ⟨spot, hspot, hsame, hlt⟩

/-- The place of a key among the black ones is higher than those of its dependencies, unless they
    are exposed. -/
theorem findIdx_lt (h : Finished graph keys explored path) {a b : Key}
    (ha : explored.contains a = true) (hwf : explored.WellFormed) (hab : graph.Needs a b)
    (hnot : ¬ graph.Exposed keys a b) :
    explored.keys.findIdx (· == b) < explored.keys.findIdx (· == a) := by
  obtain ⟨d, hd, hdb⟩ := hab
  obtain ⟨k, hk, hka⟩ := hwf.contains_iff.1 ha
  have hlt : explored.keys.findIdx (· == a) < explored.keys.length :=
    List.findIdx_lt_length.2 ⟨k, hk, hka⟩
  have hat : (explored.keys[explored.keys.findIdx (· == a)] == a) = true :=
    List.findIdx_getElem (p := (· == a))
  have hsplit : explored.keys = explored.keys.take (explored.keys.findIdx (· == a)) ++
      explored.keys[explored.keys.findIdx (· == a)] ::
        explored.keys.drop (explored.keys.findIdx (· == a) + 1) := by
    rw [List.getElem_cons_drop, List.take_append_drop]
  obtain ⟨c, hc, hcd⟩ := (h.ordered hsplit d (by rwa [eager_congr hat])).resolve_left
    fun hexposed => hnot (hexposed.congr hat hdb)
  obtain ⟨i, hi, rfl⟩ := List.mem_take_iff_getElem.1 hc
  have hle : explored.keys.findIdx (· == b) ≤ i := by
    rw [← Nat.not_lt]
    intro hbefore
    have hnot := List.not_of_lt_findIdx hbefore
    rw [BEq.trans hcd hdb] at hnot
    cases hnot
  exact lt_of_le_of_lt hle (lt_of_lt_of_le hi (min_le_left _ _))

end Finished

end Graph.CycleSearch

end Injection
