/-
  The search for cycles as a loop over frames with indices.

  The search that runs numbers the keys of the path and keeps those that are
  still to be reported.  Here it is told without both: a key has a colour, a
  frame has the index of the dependency to follow next, and a dependency on a
  gray key is looked for on the path, from the end of it.  Both searches go
  through the same states (`retraced_iterate`), so what one keeps the other has.

  * `Consistent`: the colours, the path and the indices fit together at every
    step;
  * `Spent`: an edge that was followed is behind its key for good;
  * `retracing_consistent`: so a gray key is always found on the path, no key is
    entered twice, no edge is followed twice, and the search ends.
-/
import Injection.Proofs.Cycles
import Mathlib.Data.List.Perm.Subperm

namespace Injection

namespace Graph.Retracing

/-! ## The search -/

inductive Colour
  /-- On the path. -/
  | gray
  /-- Explored. -/
  | black
deriving DecidableEq

/-- A key on the path and the index of the dependency to follow next. -/
structure Frame where
  key : Key
  next : Nat

structure State where
  colour : Key → Option Colour
  /-- The path, from its last key back to the root. -/
  path : List Frame
  /-- The keys seen on cycles, in the order in which they were seen. -/
  participants : List Key
  roots : List Key

/-- What the loop does next. -/
inductive Action
  /-- Passes over a root that has a colour. -/
  | skip (root : Key)
  | start (root : Key)
  /-- Takes the last key off the path: all its edges have been followed. -/
  | leave (key : Key)
  /-- Follows an edge, given by a key and an index, to a dependency without a colour. -/
  | enter (key : Key) (index : Nat) (dependency : Key)
  /-- Follows an edge to a black dependency. -/
  | pass (key : Key) (index : Nat) (dependency : Key)
  /-- Follows an edge to a gray dependency. -/
  | record (key : Key) (index : Nat) (dependency : Key)

namespace Action

/-- How the last key of the path follows an edge to a dependency of some colour. -/
def follow (frame : Frame) (dependency : Key) : Option Colour → Action
  | some .gray => record frame.key frame.next dependency
  | some .black => pass frame.key frame.next dependency
  | none => enter frame.key frame.next dependency

/-- The key that becomes gray. -/
def entered? : Action → Option Key
  | start root => some root
  | enter _ _ dependency => some dependency
  | _ => none

/-- The edge that is followed. -/
def edge? : Action → Option (Key × Nat)
  | enter key index _ | pass key index _ | record key index _ => some (key, index)
  | _ => none

end Action

def paint (colour : Key → Option Colour) (key : Key) (new : Colour) (other : Key) :
    Option Colour :=
  if key == other then some new else colour other

/-- The index of the last key that equals a given one. -/
def lastIndex? (keys : List Key) (entry : Key) : Option Nat :=
  (keys.reverse.findIdx? (· == entry)).map fun i => keys.length - 1 - i

/-- The keys from the last one that equals a given one; all keys if there is none. -/
def keysFrom (keys : List Key) (entry : Key) : List Key :=
  keys.drop ((lastIndex? keys entry).getD 0)

/-- Adds those keys that are not there yet. -/
def addNew (participants keys : List Key) : List Key :=
  keys.foldl (fun seen key => if seen.any (· == key) then seen else seen ++ [key]) participants

namespace State

/-- The keys of the path, from the root on. -/
def keys (state : State) : List Key := (state.path.map Frame.key).reverse

def enter (state : State) (key : Key) : State :=
  { state with colour := paint state.colour key .gray, path := ⟨key, 0⟩ :: state.path }

/-- Moves the last key of the path on to its next edge. -/
def advance (state : State) : State :=
  { state with
    path := match state.path with
      | [] => []
      | frame :: rest => { frame with next := frame.next + 1 } :: rest }

def record (state : State) (entry : Key) : State :=
  { state with participants := addNew state.participants (keysFrom state.keys entry) }

def action? (graph : Graph) (state : State) : Option Action :=
  match state.path with
  | [] => state.roots.head?.map fun root =>
    if (state.colour root).isSome then .skip root else .start root
  | frame :: _ =>
    match (graph.eager frame.key)[frame.next]? with
    | none => some (.leave frame.key)
    | some dependency => some (.follow frame dependency (state.colour dependency))

/-- The index moves on before the dependency is entered or recorded. -/
def perform (state : State) : Action → State
  | .skip _ => { state with roots := state.roots.tail }
  | .start root => { state with roots := state.roots.tail }.enter root
  | .leave key =>
    { state with colour := paint state.colour key .black, path := state.path.tail }
  | .enter _ _ dependency => state.advance.enter dependency
  | .pass _ _ _ => state.advance
  | .record _ _ dependency => state.advance.record dependency

end State

def step (graph : Graph) (state : State) : State :=
  match state.action? graph with
  | none => state
  | some action => state.perform action

/-- The state after some steps of a search from some keys. -/
def after (graph : Graph) (roots : List Key) (steps : Nat) : State :=
  (step graph)^[steps] ⟨fun _ => none, [], [], roots⟩

variable {graph : Graph} {state : State} {action : Action}

theorem step_of_action (h : state.action? graph = some action) :
    step graph state = state.perform action := by
  rw [step, h]

theorem after_succ (graph : Graph) (roots : List Key) (steps : Nat) :
    after graph roots (steps + 1) = step graph (after graph roots steps) :=
  Function.iterate_succ_apply' _ _ _

theorem action?_follow {frame : Frame} {rest : List Frame} {d : Key}
    (hpath : state.path = frame :: rest) (hd : (graph.eager frame.key)[frame.next]? = some d) :
    state.action? graph = some (.follow frame d (state.colour d)) := by
  simp [State.action?, hpath, hd]

/-- What an action finds at the end of the path. -/
theorem action_cases (h : state.action? graph = some action) :
    (∃ root, state.path = [] ∧
      (action = .skip root ∨ action = .start root ∧ state.colour root = none)) ∨
    ∃ frame rest, state.path = frame :: rest ∧
      ((action = .leave frame.key ∧ (graph.eager frame.key).length ≤ frame.next) ∨
        ∃ d, (graph.eager frame.key)[frame.next]? = some d ∧
          action = .follow frame d (state.colour d)) := by
  unfold State.action? at h
  split at h
  · next hpath =>
    obtain ⟨root, -, rfl⟩ := Option.map_eq_some_iff.1 h
    refine Or.inl ⟨root, hpath, ?_⟩
    cases hroot : state.colour root with
    | none => exact Or.inr ⟨by simp, rfl⟩
    | some colour => exact Or.inl (by simp)
  · next frame rest hpath =>
    refine Or.inr ⟨frame, rest, hpath, ?_⟩
    split at h
    · next hend => exact Or.inl ⟨(Option.some.inj h).symm, List.getElem?_eq_none_iff.1 hend⟩
    · next d hd => exact Or.inr ⟨d, hd, (Option.some.inj h).symm⟩

/-! ## Keys of the path -/

section

variable {before behind : List Key} {key entry : Key}

theorem lastIndex?_append (hkey : (key == entry) = true)
    (hbehind : ∀ k ∈ behind, (k == entry) = false) :
    lastIndex? (before ++ key :: behind) entry = some before.length := by
  have hnone : behind.reverse.findIdx? (· == entry) = none := by
    rw [List.findIdx?_eq_none_iff]
    exact fun k hk => hbehind k (List.mem_reverse.1 hk)
  have hfind : (before ++ key :: behind).reverse.findIdx? (· == entry) = some behind.length := by
    rw [List.reverse_append, List.reverse_cons, List.append_assoc, List.findIdx?_append, hnone]
    simp [List.findIdx?_cons, hkey]
  rw [lastIndex?, hfind, Option.map_some, List.length_append, List.length_cons]
  congr 1
  omega

theorem keysFrom_append (hkey : (key == entry) = true)
    (hbehind : ∀ k ∈ behind, (k == entry) = false) :
    keysFrom (before ++ key :: behind) entry = key :: behind := by
  rw [keysFrom, lastIndex?_append hkey hbehind, Option.getD_some, List.drop_left]

/-- Keys among which one is can be split at the last one that equals it. -/
theorem exists_split : ∀ {keys : List Key}, Key.Among keys entry →
    ∃ before key behind, keys = before ++ key :: behind ∧ (key == entry) = true ∧
      ∀ k ∈ behind, (k == entry) = false
  | [], h => by obtain ⟨k, hk, -⟩ := h; cases hk
  | k :: keys, h => by
    by_cases hkeys : Key.Among keys entry
    · obtain ⟨before, key, behind, rfl, hkey, hbehind⟩ := exists_split hkeys
      exact ⟨k :: before, key, behind, rfl, hkey, hbehind⟩
    · refine ⟨[], k, keys, rfl, (Key.Among.cons_iff.1 h).resolve_right hkeys, fun k hk => ?_⟩
      rw [← Bool.not_eq_true]
      exact fun hsame => hkeys ⟨k, hk, hsame⟩

end

/-- Of pairwise different keys those are added that are not there yet. -/
theorem addNew_eq : ∀ {keys participants : List Key},
    (keys.Pairwise fun a b => (a == b) = false) →
    addNew participants keys =
      participants ++ keys.filter fun key => !participants.any (· == key)
  | [], _, _ => (List.append_nil _).symm
  | key :: keys, participants, h => by
    obtain ⟨hkey, hkeys⟩ := List.pairwise_cons.1 h
    rw [addNew, List.foldl_cons]
    split
    · next hold =>
      rw [List.filter_cons_of_neg (by simpa using hold)]
      exact addNew_eq hkeys
    · next hnew =>
      rw [List.filter_cons_of_pos (by simpa using hnew)]
      refine (addNew_eq hkeys).trans ?_
      -- the key just added is none of the others
      have hsame : ∀ k ∈ keys, (!(participants ++ [key]).any (· == k)) =
          !participants.any (· == k) := fun k hk => by
        simp [hkey k hk]
      rw [List.filter_congr hsame, List.append_assoc, List.singleton_append]

/-! ## The search that runs -/

section

open CycleSearch

variable {entered : SlotTable Key Nat} {explored : KeySet} {path : List CycleSearch.Frame}
  {running next : CycleSearch.State} {key : Key}

def colourOf (entered : SlotTable Key Nat) (explored : KeySet) (key : Key) : Option Colour :=
  if explored.contains key then some .black
  else if entered.contains key then some .gray
  else none

def retracedFrame (graph : Graph) (frame : CycleSearch.Frame) : Frame :=
  ⟨frame.key, (graph.eager frame.key).length - frame.pending.length⟩

/-- A state of the search that runs, without places and without the keys still to be reported. -/
def retraced (graph : Graph) (running : CycleSearch.State) : State where
  colour := colourOf running.entered running.explored
  path := running.path.map (retracedFrame graph)
  participants := running.participants.toList
  roots := running.roots

theorem keys_retraced (graph : Graph) (running : CycleSearch.State) :
    (retraced graph running).keys = ((spots running.path).map (·.2)).reverse := by
  simp [State.keys, retraced, retracedFrame, spots, Function.comp_def]

theorem colourOf_eq_black_iff :
    colourOf entered explored key = some .black ↔ explored.contains key = true := by
  simp [colourOf]

theorem colourOf_eq_gray_iff :
    colourOf entered explored key = some .gray ↔
      entered.contains key = true ∧ explored.contains key = false := by
  unfold colourOf
  split
  · next hblack => simp [hblack]
  · next hgray => simp [hgray]

theorem isSome_colourOf_iff (h : Coloured graph entered explored path) :
    (colourOf entered explored key).isSome = true ↔ entered.contains key = true := by
  unfold colourOf
  split
  · next hblack => simp [h.entered_of_explored hblack]
  · simp

theorem colourOf_eq_none_iff (h : Coloured graph entered explored path) :
    colourOf entered explored key = none ↔ entered.contains key = false := by
  rw [← Option.not_isSome_iff_eq_none, isSome_colourOf_iff h, Bool.not_eq_true]

theorem colourOf_insertNew (h : Coloured graph entered explored path)
    (hnew : entered.contains key = false) (place : Nat) :
    colourOf (entered.insertNew key place) explored =
      paint (colourOf entered explored) key .gray := by
  funext other
  simp only [colourOf, paint, h.entered_wf.contains_insertNew, Bool.or_eq_true]
  by_cases hsame : (key == other) = true
  · have hgray : explored.contains other = false := by
      rw [← h.explored_wf.contains_congr hsame, ← Bool.not_eq_true]
      intro hblack
      rw [h.entered_of_explored hblack] at hnew
      cases hnew
    simp [hsame, hgray]
  · simp [hsame]

theorem colourOf_add (h : Coloured graph entered explored path) (key : Key) :
    colourOf entered (explored.add key) = paint (colourOf entered explored) key .black := by
  funext other
  simp only [colourOf, paint, KeySet.contains_add h.explored_wf, Bool.or_eq_true]
  by_cases hsame : (key == other) = true <;> simp [hsame]

/-- The edges before the index are the ones that were followed, and the others are pending. -/
theorem eager_split (h : Coloured graph entered explored path) {frame : CycleSearch.Frame}
    (hframe : frame ∈ path) :
    (graph.eager frame.key).drop (retracedFrame graph frame).next = frame.pending ∧
      ∀ d ∈ (graph.eager frame.key).take (retracedFrame graph frame).next,
        entered.contains d = true := by
  obtain ⟨done, heager, hdone⟩ := h.followed frame hframe
  have hnext : (retracedFrame graph frame).next = done.length := by
    simp [retracedFrame, heager]
  rw [hnext, heager, List.drop_left, List.take_left]
  exact ⟨rfl, hdone⟩

/-- The keys still to be reported are those of the path that are not participants. -/
theorem unclaimed_eq (h : Steady graph running) :
    running.unclaimed = (spots running.path).filter fun spot =>
      !running.participants.toList.any (· == spot.2) := by
  have hnodup : (spots running.path).Nodup := by
    refine List.nodup_iff_pairwise_ne.2 (h.coloured.walk.imp fun {upper lower} hwalk hsame => ?_)
    rw [hsame] at hwalk
    exact Nat.lt_irrefl _ hwalk.1
  have hnew : ∀ spot ∈ running.unclaimed,
      (!running.participants.toList.any (· == spot.2)) = true := fun spot hspot => by
    have happart := (List.pairwise_append.1 h.claimed.distinct).2.2
    rw [Bool.not_eq_true', List.any_eq_false]
    intro k hk
    rw [happart k hk spot.2 (List.mem_map_of_mem hspot)]
    exact Bool.false_ne_true
  have hsub := h.claimed.sublist.filter fun spot =>
    !running.participants.toList.any (· == spot.2)
  rw [List.filter_eq_self.2 hnew] at hsub
  refine hsub.eq_of_length_le <|
    List.Nodup.length_le_of_subset (hnodup.filter _) fun spot hspot => ?_
  obtain ⟨hmem, hspot⟩ := List.mem_filter.1 hspot
  refine (h.claimed.covered spot hmem).resolve_right ?_
  rintro ⟨k, hk, hsame⟩
  rw [List.any_eq_true.2 ⟨k, hk, hsame⟩] at hspot
  cases hspot

/-- The keys of a path are pairwise different. -/
theorem distinct_spots (h : Coloured graph entered explored path) :
    (spots path).Pairwise fun upper lower => (upper.2 == lower.2) = false := by
  refine h.walk.imp_of_mem fun {upper lower} hupper hlower hwalk => ?_
  rw [← Bool.not_eq_true]
  intro hsame
  -- equal keys have one place
  have hplace := (h.spot hupper).1
  rw [h.entered_wf.get?_congr hsame, (h.spot hlower).1] at hplace
  exact Nat.ne_of_lt hwalk.1 (Option.some.inj hplace)

/-- Of spots from the highest place down to the lowest, those from one on are the ones before
    it and that one. -/
theorem filter_le_eq {above below : List (Nat × Key)} {spot : Nat × Key}
    (h : (above ++ spot :: below).Pairwise fun upper lower => lower.1 < upper.1) :
    (above ++ spot :: below).filter (fun other => spot.1 ≤ other.1) = above ++ [spot] := by
  obtain ⟨-, hbelow, habove⟩ := List.pairwise_append.1 h
  have hup : above.filter (fun other => decide (spot.1 ≤ other.1)) = above :=
    List.filter_eq_self.2 fun other hother => by
      simpa using (habove other hother spot List.mem_cons_self).le
  have hdown : below.filter (fun other => decide (spot.1 ≤ other.1)) = [] :=
    List.filter_eq_nil_iff.2 fun other hother => by
      simpa using List.rel_of_pairwise_cons hbelow hother
  rw [List.filter_append, hup, List.filter_cons_of_pos (by simp), hdown]

/-- The keys of the path from a gray key on are those from its place on. -/
theorem keysFrom_spots (h : Coloured graph entered explored path) {d : Key} {entry : Nat}
    (hentry : entered.get? d = some entry) (hgray : explored.contains d = false) :
    keysFrom ((spots path).map (·.2)).reverse d =
      (((spots path).filter fun spot => entry ≤ spot.1).map (·.2)).reverse := by
  obtain ⟨⟨place, k⟩, hk, hkd⟩ := h.gray (SlotTable.contains_of_get? hentry) hgray
  have hplace := (h.spot hk).1
  rw [h.entered_wf.get?_congr hkd, hentry] at hplace
  obtain rfl := Option.some.inj hplace
  obtain ⟨above, below, hpath⟩ := List.append_of_mem hk
  have hdistinct := distinct_spots h
  have hplaces := h.walk.imp fun hwalk => hwalk.1
  rw [hpath] at hdistinct hplaces ⊢
  have hbehind : ∀ key ∈ (above.map (·.2)).reverse, (key == d) = false := by
    intro key hkey
    obtain ⟨spot, hspot, rfl⟩ := List.mem_map.1 (List.mem_reverse.1 hkey)
    have hne := (List.pairwise_append.1 hdistinct).2.2 spot hspot _ List.mem_cons_self
    rw [← Bool.not_eq_true]
    intro hsame
    rw [BEq.trans hsame (BEq.symm hkd)] at hne
    cases hne
  have hkeys : ((above ++ (entry, k) :: below).map (·.2)).reverse =
      (below.map (·.2)).reverse ++ k :: (above.map (·.2)).reverse := by
    simp
  rw [hkeys, keysFrom_append hkd hbehind, filter_le_eq hplaces]
  simp

/-- The keys claimed at a gray key are those found from it on that are not participants yet. -/
theorem addNew_keysFrom (h : Steady graph running) {d : Key} {entry : Nat}
    (hentry : running.entered.get? d = some entry) (hgray : running.explored.contains d = false) :
    addNew running.participants.toList (keysFrom (retraced graph running).keys d) =
      running.participants.toList ++
        ((splitFrom entry running.unclaimed).1.map (·.2)).reverse := by
  have hdistinct : ((((spots running.path).filter fun spot => entry ≤ spot.1).map
      (·.2)).reverse).Pairwise fun a b => (a == b) = false := by
    rw [List.pairwise_reverse, List.pairwise_map]
    exact ((distinct_spots h.coloured).filter _).imp fun hne => by rwa [BEq.comm]
  rw [keys_retraced, keysFrom_spots h.coloured hentry hgray, addNew_eq hdistinct,
    splitFrom_eq entry (h.claimed.sorted h.coloured), unclaimed_eq h, List.filter_comm,
    List.filter_reverse, List.filter_map]
  rfl

section

variable {place : Nat} {d : Key} {pending : List Key} {rest : List CycleSearch.Frame}
  (unclaimed : List (Nat × Key)) (participants : Array Key) (roots : List Key)

/-- The first pending dependency is the one at the index. -/
theorem getElem?_next (h : Coloured graph entered explored (⟨key, place, d :: pending⟩ :: rest)) :
    (graph.eager key)[(retracedFrame graph ⟨key, place, d :: pending⟩).next]? = some d := by
  have hdrop := (eager_split h List.mem_cons_self).1
  rw [← List.head?_drop, hdrop, List.head?_cons]

/-- A dependency that is not pending any more is before the index. -/
theorem advance_retraced
    (h : Coloured graph entered explored (⟨key, place, d :: pending⟩ :: rest)) :
    (retraced graph ⟨entered, explored, ⟨key, place, d :: pending⟩ :: rest, unclaimed,
        participants, roots⟩).advance =
      retraced graph ⟨entered, explored, ⟨key, place, pending⟩ :: rest, unclaimed, participants,
        roots⟩ := by
  obtain ⟨done, heager, -⟩ := h.followed _ List.mem_cons_self
  simp only [State.advance, retraced, retracedFrame, List.map_cons, heager, List.length_append,
    List.length_cons]
  congr 3
  omega

theorem step_follow
    (h : Coloured graph entered explored (⟨key, place, d :: pending⟩ :: rest)) :
    step graph (retraced graph ⟨entered, explored, ⟨key, place, d :: pending⟩ :: rest, unclaimed,
        participants, roots⟩) =
      (retraced graph ⟨entered, explored, ⟨key, place, d :: pending⟩ :: rest, unclaimed,
        participants, roots⟩).perform
          (.follow (retracedFrame graph ⟨key, place, d :: pending⟩) d
            (colourOf entered explored d)) :=
  step_of_action (action?_follow rfl (getElem?_next h))

end

/-- The step of the search that runs is the step of this one. -/
theorem retraced_move (h : Steady graph running) (hmove : Move graph running next) :
    retraced graph next = step graph (retraced graph running) := by
  obtain ⟨hc, hcl⟩ := h
  cases hmove with
  | stay => rfl
  | @skip entered explored unclaimed participants root roots hroot =>
    have hcolour := (isSome_colourOf_iff hc).2 hroot
    have haction : (retraced graph
        ⟨entered, explored, [], unclaimed, participants, root :: roots⟩).action? graph =
          some (.skip root) := by
      simp [State.action?, retraced, hcolour]
    rw [step_of_action haction]
    rfl
  | @start entered explored unclaimed participants root roots hroot =>
    have hcolour := (colourOf_eq_none_iff hc).2 hroot
    have haction : (retraced graph
        ⟨entered, explored, [], unclaimed, participants, root :: roots⟩).action? graph =
          some (.start root) := by
      simp [State.action?, retraced, hcolour]
    rw [step_of_action haction]
    simp [retraced, retracedFrame, CycleSearch.State.enter, State.perform, State.enter,
      colourOf_insertNew hc hroot]
  | @leave entered explored key place rest unclaimed participants roots =>
    have haction : (retraced graph
        ⟨entered, explored, ⟨key, place, []⟩ :: rest, unclaimed, participants, roots⟩).action?
          graph = some (.leave key) := by
      simp [State.action?, retraced, retracedFrame]
    rw [step_of_action haction]
    simp [retraced, State.perform, colourOf_add hc]
  | enter hd =>
    rw [step_follow _ _ _ hc, (colourOf_eq_none_iff hc).2 hd, Action.follow, State.perform,
      advance_retraced _ _ _ hc]
    simp [retraced, retracedFrame, CycleSearch.State.enter, State.enter, colourOf_insertNew hc hd]
  | pass hd hblack =>
    rw [step_follow _ _ _ hc, colourOf_eq_black_iff.2 hblack, Action.follow, State.perform,
      advance_retraced _ _ _ hc]
  | @close entered explored key place d entry pending rest unclaimed participants roots hentry
      hgray =>
    have hd := SlotTable.contains_of_get? hentry
    have hsteady : Steady graph ⟨entered, explored, ⟨key, place, pending⟩ :: rest, unclaimed,
        participants, roots⟩ := ⟨hc.advance [] hd, hcl.congr rfl⟩
    rw [step_follow _ _ _ hc, colourOf_eq_gray_iff.2 ⟨hd, hgray⟩, Action.follow, State.perform,
      advance_retraced _ _ _ hc, State.record]
    simpa [retraced] using (addNew_keysFrom hsteady hentry hgray).symm

theorem retraced_searchFrom (graph : Graph) (roots : List Key) :
    retraced graph (searchFrom roots) = after graph roots 0 := by
  have hempty : colourOf .empty .empty = fun _ => none := by
    funext key
    simp [colourOf]
  simp [retraced, searchFrom, after, hempty]

/-- Both searches go through the same states. -/
theorem retraced_iterate (graph : Graph) (roots : List Key) : ∀ steps : Nat,
    Steady graph ((CycleSearch.step graph)^[steps] (searchFrom roots)) ∧
      after graph roots steps =
        retraced graph ((CycleSearch.step graph)^[steps] (searchFrom roots))
  | 0 => ⟨steady_searchFrom roots, (retraced_searchFrom graph roots).symm⟩
  | steps + 1 => by
    obtain ⟨hsteady, hsame⟩ := retraced_iterate graph roots steps
    rw [Function.iterate_succ_apply', after_succ, hsame]
    exact ⟨hsteady.move (move_step _), (retraced_move hsteady (move_step _)).symm⟩

end

/-! ## What every step keeps -/

/-- Colours, path and indices fit together. -/
structure Consistent (graph : Graph) (state : State) : Prop where
  /-- Equal keys have one colour. -/
  alike : ∀ {a b : Key}, (a == b) = true → state.colour a = state.colour b
  /-- The gray keys are those of the path. -/
  gray_iff : ∀ {key : Key}, state.colour key = some .gray ↔ Key.Among state.keys key
  distinct : state.keys.Pairwise fun a b => (a == b) = false
  /-- Each key of the path needs the next one. -/
  chain : state.keys.IsChain graph.Needs
  /-- The dependencies of a black key are black or gray. -/
  closed : ∀ {key : Key}, state.colour key = some .black →
    ∀ d ∈ graph.eager key, (state.colour d).isSome = true
  /-- The edges that were followed lead to keys with a colour. -/
  followed : ∀ frame ∈ state.path, ∀ d ∈ (graph.eager frame.key).take frame.next,
    (state.colour d).isSome = true

theorem consistent_retraced {running : CycleSearch.State} (h : CycleSearch.Steady graph running) :
    Consistent graph (retraced graph running) := by
  obtain ⟨hc, -⟩ := h
  refine ⟨fun {a b} hsame => ?_, fun {key} => ?_, ?_, ?_, fun {key} hblack d hd => ?_, ?_⟩
  · simp only [retraced, colourOf, hc.explored_wf.contains_congr hsame,
      hc.entered_wf.contains_congr hsame]
  · refine colourOf_eq_gray_iff.trans ⟨fun ⟨hentered, hgray⟩ => ?_, ?_⟩
    · obtain ⟨spot, hspot, hsame⟩ := hc.gray hentered hgray
      refine ⟨spot.2, ?_, hsame⟩
      rw [keys_retraced, List.mem_reverse]
      exact List.mem_map_of_mem hspot
    · rintro ⟨k, hk, hsame⟩
      rw [keys_retraced, List.mem_reverse] at hk
      obtain ⟨spot, hspot, rfl⟩ := List.mem_map.1 hk
      obtain ⟨hplace, hgray⟩ := hc.spot hspot
      rw [← hc.entered_wf.contains_congr hsame, ← hc.explored_wf.contains_congr hsame]
      exact ⟨SlotTable.contains_of_get? hplace, hgray⟩
  · rw [keys_retraced, List.pairwise_reverse, List.pairwise_map]
    exact (distinct_spots hc).imp fun hne => by rwa [BEq.comm]
  · rw [keys_retraced, List.isChain_reverse, List.isChain_map]
    exact hc.chain.imp fun _ _ hstep => hstep.2
  · exact (isSome_colourOf_iff hc).2 (hc.closed (colourOf_eq_black_iff.1 hblack) d hd)
  · intro frame hframe d hd
    obtain ⟨running, hrunning, rfl⟩ := List.mem_map.1 hframe
    exact (isSome_colourOf_iff hc).2 ((eager_split hc hrunning).2 d hd)

theorem consistent_after (graph : Graph) (roots : List Key) (steps : Nat) :
    Consistent graph (after graph roots steps) := by
  obtain ⟨hsteady, hsame⟩ := retraced_iterate graph roots steps
  rw [hsame]
  exact consistent_retraced hsteady

@[simp] theorem keys_advance (state : State) : state.advance.keys = state.keys := by
  cases hpath : state.path with
  | nil => simp [State.keys, State.advance, hpath]
  | cons frame rest => simp [State.keys, State.advance, hpath]

/-- A gray key is found on the path. -/
theorem Consistent.exists_lastIndex? (h : Consistent graph state) {key : Key}
    (hgray : state.colour key = some .gray) :
    ∃ place k, lastIndex? state.keys key = some place ∧ state.keys[place]? = some k ∧
      (k == key) = true := by
  obtain ⟨before, k, behind, hkeys, hsame, hbehind⟩ := exists_split (h.gray_iff.1 hgray)
  refine ⟨before.length, k, ?_, ?_, hsame⟩
  · rw [hkeys, lastIndex?_append hsame hbehind]
  · rw [hkeys, List.getElem?_append_right (Nat.le_refl _), Nat.sub_self, List.getElem?_cons_zero]

/-! ## What is done once -/

/-- What every action keeps holds from some step on. -/
theorem after_of_perform {P : State → Prop}
    (hperform : ∀ state action, Consistent graph state → state.action? graph = some action →
      P state → P (state.perform action))
    {roots : List Key} {i j : Nat} (hle : i ≤ j) (h : P (after graph roots i)) :
    P (after graph roots j) := by
  induction j, hle using Nat.le_induction with
  | base => exact h
  | succ j _ ih =>
    rw [after_succ, step]
    split
    · exact ih
    · next action haction => exact hperform _ action (consistent_after graph roots j) haction ih

/-- A key keeps being coloured. -/
theorem isSome_perform {key : Key} (h : (state.colour key).isSome = true) :
    ((state.perform action).colour key).isSome = true := by
  have hpaint : ∀ other new, (paint state.colour other new key).isSome = true := by
    intro other new
    unfold paint
    split
    · rfl
    · exact h
  cases action with
  | skip => exact h
  | start root => exact hpaint root .gray
  | leave last => exact hpaint last .black
  | enter _ _ d => exact hpaint d .gray
  | pass => exact h
  | record => exact h

/-- A key has no colour before it is entered, and has one then. -/
theorem colour_entered (h : state.action? graph = some action) {key : Key}
    (hkey : action.entered? = some key) :
    state.colour key = none ∧ ((state.perform action).colour key).isSome = true := by
  have hpaint : ∀ colour : Key → Option Colour,
      (paint colour key .gray key).isSome = true := fun _ => by
    rw [paint, if_pos BEq.rfl]
    rfl
  rcases action_cases h with ⟨root, -, rfl | ⟨rfl, hroot⟩⟩ |
    ⟨frame, rest, -, ⟨rfl, -⟩ | ⟨d, -, rfl⟩⟩
  · cases hkey
  · obtain rfl := Option.some.inj hkey
    exact ⟨hroot, hpaint _⟩
  · cases hkey
  · match hcolour : state.colour d, hkey with
    | none, hkey =>
      obtain rfl := Option.some.inj hkey
      exact ⟨hcolour, hpaint _⟩
    | some .gray, hkey => cases hkey
    | some .black, hkey => cases hkey

theorem colour_of_record {key d : Key} {index : Nat}
    (h : state.action? graph = some (.record key index d)) : state.colour d = some .gray := by
  rcases action_cases h with ⟨root, -, h | ⟨h, -⟩⟩ | ⟨frame, rest, -, ⟨h, -⟩ | ⟨d, -, h⟩⟩
  · cases h
  · cases h
  · cases h
  · match hcolour : state.colour d, h with
    | some .gray, h =>
      obtain ⟨-, -, rfl⟩ := Action.record.inj h
      exact hcolour

/-- The edge that is followed is the next one of the last key on the path. -/
theorem followed_cases (h : state.action? graph = some action) {edge : Key × Nat}
    (hedge : action.edge? = some edge) :
    ∃ frame rest d, state.path = frame :: rest ∧ edge = (frame.key, frame.next) ∧
      action = .follow frame d (state.colour d) := by
  rcases action_cases h with ⟨root, -, rfl | ⟨rfl, -⟩⟩ |
    ⟨frame, rest, hpath, ⟨rfl, -⟩ | ⟨d, -, rfl⟩⟩
  · cases hedge
  · cases hedge
  · cases hedge
  · refine ⟨frame, rest, d, hpath, ?_, rfl⟩
    match state.colour d, hedge with
    | none, hedge => exact (Option.some.inj hedge).symm
    | some .gray, hedge => exact (Option.some.inj hedge).symm
    | some .black, hedge => exact (Option.some.inj hedge).symm

/-- An edge is behind its key: the key is black, or its index on the path is past the edge. -/
def Spent (state : State) (edge : Key × Nat) : Prop :=
  state.colour edge.1 = some .black ∨
    ∃ frame ∈ state.path, (frame.key == edge.1) = true ∧ edge.2 < frame.next

namespace Spent

variable {edge : Key × Nat}

theorem advance (h : Spent state edge) : Spent state.advance edge := by
  rcases h with hblack | ⟨frame, hframe, hsame, hlt⟩
  · exact Or.inl hblack
  · refine Or.inr ?_
    cases hpath : state.path with
    | nil => simp [hpath] at hframe
    | cons last rest =>
      rw [hpath] at hframe
      simp only [State.advance, hpath]
      rcases List.mem_cons.1 hframe with rfl | hframe
      · exact ⟨_, List.mem_cons_self, hsame, Nat.lt_succ_of_lt hlt⟩
      · exact ⟨frame, List.mem_cons_of_mem _ hframe, hsame, hlt⟩

/-- A key that is entered is not the key of an edge that is behind it. -/
theorem enter (h : Spent state edge) {key : Key}
    (halike : (key == edge.1) = true → state.colour key = state.colour edge.1)
    (hnew : state.colour key = none) : Spent (state.enter key) edge := by
  rcases h with hblack | ⟨frame, hframe, hsame, hlt⟩
  · refine Or.inl ?_
    have hother : ¬ (key == edge.1) = true := fun hsame => by
      rw [← halike hsame, hnew] at hblack
      cases hblack
    simp only [State.enter, paint, if_neg hother, hblack]
  · exact Or.inr ⟨frame, List.mem_cons_of_mem _ hframe, hsame, hlt⟩

/-- An edge stays behind its key. -/
theorem perform (h : Spent state edge) (hconsistent : Consistent graph state)
    (haction : state.action? graph = some action) : Spent (state.perform action) edge := by
  rcases action_cases haction with ⟨root, -, rfl | ⟨rfl, hroot⟩⟩ |
    ⟨last, rest, hpath, ⟨rfl, -⟩ | ⟨d, -, rfl⟩⟩
  · exact h
  · have hrest : Spent { state with roots := state.roots.tail } edge := h
    exact hrest.enter hconsistent.alike hroot
  · -- the key that leaves the path turns black
    unfold Spent State.perform paint
    dsimp only
    split
    · exact Or.inl rfl
    · next hother =>
      refine h.imp_right ?_
      rintro ⟨frame, hframe, hsame, hlt⟩
      rw [hpath] at hframe ⊢
      rcases List.mem_cons.1 hframe with rfl | hframe
      · exact absurd hsame hother
      · exact ⟨frame, hframe, hsame, hlt⟩
  · match hcolour : state.colour d with
    | none => exact h.advance.enter hconsistent.alike hcolour
    | some .gray => exact h.advance
    | some .black => exact h.advance

/-- An edge is behind its key once it is followed. -/
theorem of_followed (haction : state.action? graph = some action)
    (hedge : action.edge? = some edge) : Spent (state.perform action) edge := by
  obtain ⟨frame, rest, d, hpath, rfl, rfl⟩ := followed_cases haction hedge
  have hmem : { frame with next := frame.next + 1 } ∈ state.advance.path := by
    simp only [State.advance, hpath]
    exact List.mem_cons_self
  match state.colour d with
  | none => exact Or.inr ⟨_, List.mem_cons_of_mem _ hmem, BEq.rfl, Nat.lt_succ_self _⟩
  | some .gray => exact Or.inr ⟨_, hmem, BEq.rfl, Nat.lt_succ_self _⟩
  | some .black => exact Or.inr ⟨_, hmem, BEq.rfl, Nat.lt_succ_self _⟩

/-- An edge that is behind its key is not followed. -/
theorem not_followed (h : Spent state edge) (hconsistent : Consistent graph state)
    (haction : state.action? graph = some action) {key : Key}
    (hsame : (key == edge.1) = true) : action.edge? ≠ some (key, edge.2) := by
  intro hedge
  obtain ⟨last, rest, d, hpath, hlast, -⟩ := followed_cases haction hedge
  obtain ⟨rfl, hnext⟩ := Prod.mk.inj hlast
  have hkeys : state.keys.reverse = last.key :: rest.map Frame.key := by
    simp [State.keys, hpath]
  rcases h with hblack | ⟨frame, hframe, hkey, hlt⟩
  · -- the last key of the path is gray
    have hgray : state.colour last.key = some .gray := by
      refine hconsistent.gray_iff.2 ⟨last.key, ?_, BEq.rfl⟩
      rw [← List.mem_reverse, hkeys]
      exact List.mem_cons_self
    rw [hconsistent.alike hsame, hblack] at hgray
    cases hgray
  · rw [hpath] at hframe
    rcases List.mem_cons.1 hframe with rfl | hframe
    · exact Nat.ne_of_lt hlt hnext
    · -- no other key of the path equals it
      have hdistinct := List.pairwise_reverse.2 hconsistent.distinct
      rw [hkeys] at hdistinct
      have hne := List.rel_of_pairwise_cons hdistinct (List.mem_map_of_mem hframe)
      rw [BEq.trans hkey (BEq.symm hsame)] at hne
      cases hne

end Spent

/-- The key that a step enters. -/
def enteredAt (graph : Graph) (roots : List Key) (steps : Nat) : Option Key :=
  ((after graph roots steps).action? graph).bind Action.entered?

/-- The edge that a step follows. -/
def followedAt (graph : Graph) (roots : List Key) (steps : Nat) : Option (Key × Nat) :=
  ((after graph roots steps).action? graph).bind Action.edge?

theorem not_entered_again {roots : List Key} {i j : Nat} (hlt : i < j) {a b : Key}
    (ha : enteredAt graph roots i = some a) (hb : enteredAt graph roots j = some b) :
    (a == b) = false := by
  obtain ⟨action, haction, ha⟩ := Option.bind_eq_some_iff.1 ha
  obtain ⟨action', haction', hb⟩ := Option.bind_eq_some_iff.1 hb
  have hcolour := (colour_entered haction ha).2
  rw [← step_of_action haction, ← after_succ] at hcolour
  rw [← Bool.not_eq_true]
  intro hsame
  have hlater := after_of_perform (P := fun state => (state.colour a).isSome = true)
    (fun _ _ _ _ h => isSome_perform h) hlt hcolour
  rw [(consistent_after graph roots j).alike hsame, (colour_entered haction' hb).1] at hlater
  cases hlater

theorem not_followed_again {roots : List Key} {i j : Nat} (hlt : i < j) {a b : Key} {m n : Nat}
    (ha : followedAt graph roots i = some (a, m)) (hb : followedAt graph roots j = some (b, n)) :
    (a == b) = false ∨ m ≠ n := by
  obtain ⟨action, haction, ha⟩ := Option.bind_eq_some_iff.1 ha
  obtain ⟨action', haction', hb⟩ := Option.bind_eq_some_iff.1 hb
  have hspent := Spent.of_followed haction ha
  rw [← step_of_action haction, ← after_succ] at hspent
  rw [or_iff_not_imp_left, Bool.not_eq_false]
  rintro hsame rfl
  have hlater := after_of_perform (P := fun state => Spent state (a, m))
    (fun _ _ hconsistent haction h => h.perform hconsistent haction) hlt hspent
  exact hlater.not_followed (consistent_after graph roots j) haction' (BEq.symm hsame) hb

/-! ## Results -/

/-- A search that is over stays as it is. -/
theorem step_of_isDone (running : CycleSearch.State) (h : running.isDone = true) :
    CycleSearch.step graph running = running := by
  obtain ⟨entered, explored, path, unclaimed, participants, roots⟩ := running
  obtain ⟨rfl, rfl⟩ : path = [] ∧ roots = [] := by
    simpa [CycleSearch.State.isDone] using h
  rfl

theorem iterate_isDone (graph : Graph) (roots : List Key) :
    ((CycleSearch.step graph)^[2 * (roots.length + graph.edgeCount)]
      (CycleSearch.searchFrom roots)).isDone = true := by
  rw [← Walk.run_eq_iterate step_of_isDone]
  exact CycleSearch.run_searchFrom_isDone graph roots

theorem action?_of_isDone {running : CycleSearch.State} (h : running.isDone = true) :
    (retraced graph running).action? graph = none := by
  obtain ⟨hpath, hroots⟩ : running.path = [] ∧ running.roots = [] := by
    simpa [CycleSearch.State.isDone] using h
  simp [State.action?, retraced, hpath, hroots]

/-- From whatever keys the search starts, its states are consistent.  So when a cycle is recorded
    its first key is found on the path, no key is entered twice and no edge followed twice, and
    the search ends.  It goes through the states of the search that runs, and ends with the same
    participants. -/
theorem retracing_consistent (graph : Graph) (roots : List Key) :
    (∀ steps, Consistent graph (after graph roots steps)) ∧
    (∀ steps key index d,
      (after graph roots steps).action? graph = some (.record key index d) →
        ∃ place k, lastIndex? (after graph roots steps).advance.keys d = some place ∧
          (after graph roots steps).advance.keys[place]? = some k ∧ (k == d) = true) ∧
    (∀ i j a b, i < j → enteredAt graph roots i = some a → enteredAt graph roots j = some b →
      (a == b) = false) ∧
    (∀ i j a b m n, i < j → followedAt graph roots i = some (a, m) →
      followedAt graph roots j = some (b, n) → (a == b) = false ∨ m ≠ n) ∧
    (after graph roots (2 * (roots.length + graph.edgeCount))).action? graph = none ∧
    (∀ steps, after graph roots steps =
      retraced graph ((CycleSearch.step graph)^[steps] (CycleSearch.searchFrom roots))) ∧
    (after graph graph.keys (2 * (graph.size + graph.edgeCount))).participants =
      graph.cycles := by
  have hsame : ∀ roots steps, after graph roots steps =
      retraced graph ((CycleSearch.step graph)^[steps] (CycleSearch.searchFrom roots)) :=
    fun roots steps => (retraced_iterate graph roots steps).2
  refine ⟨consistent_after graph roots, fun steps key index d h => ?_,
    fun i j a b hlt ha hb => not_entered_again hlt ha hb,
    fun i j a b m n hlt ha hb => not_followed_again hlt ha hb, ?_, hsame roots, ?_⟩
  · rw [keys_advance]
    exact (consistent_after graph roots steps).exists_lastIndex? (colour_of_record h)
  · rw [hsame]
    exact action?_of_isDone (iterate_isDone graph roots)
  · rw [hsame, ← Walk.run_eq_iterate step_of_isDone]
    rfl

end Graph.Retracing

end Injection
