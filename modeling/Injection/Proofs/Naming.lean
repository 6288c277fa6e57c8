/-
  The texts by which an exported graph names its nodes.

  An edge of a graph leads to the node whose key equals the dependency, and
  equality looks at what the members of a qualifier come to.  The text of a key
  shows the members that were given.  So a default that is given in one place
  and left implicit in another makes two texts for one key.

  * `Outline`: which members a literal shows, at every depth;
  * `Qualifier.ordered_ofAssignments`: a qualifier that is made keeps its members
    in order, as those of keys are;
  * `Qualifier.render_eq_show`: a text tells the value and the outline, and
    nothing else;
  * `Dangling.app_dangles`: a valid graph with an edge whose text no node has;
  * `Graph.validate_names`: in a valid graph every edge leads to a node, and has
    the text of that node's key if the two keys show the same members.
-/
import Injection.Graph.Export
import Injection.Proofs.Reading
import Injection.Proofs.Validation

namespace Injection

/-! ## Outlines -/

/-- Which members a literal shows: those given, by name, in itself and in its parts. -/
inductive Outline where
  | scalar
  | array (elements : List Outline)
  | members (given : List (String × Outline))

mutual

def Literal.outline : Literal → Outline
  | .scalar _ => .scalar
  | .packed elements => .array (elements.scalars.map fun _ => .scalar)
  | .objects elements => .array (Literal.outlines elements)
  | .qualifier qualifier => qualifier.outline

def Qualifier.outline : Qualifier → Outline
  | ⟨_, explicit⟩ => .members (Qualifier.givenOutlines explicit)

def Literal.outlines : List Literal → List Outline
  | [] => []
  | element :: elements => element.outline :: Literal.outlines elements

def Qualifier.givenOutlines : List (String × Literal) → List (String × Outline)
  | [] => []
  | (name, given) :: members => (name, given.outline) :: Qualifier.givenOutlines members

end

mutual

/-- The text of a value that shows the members of an outline. -/
def Outline.show : Outline → Value → String
  | .scalar, .scalar value => value.render
  | .array outlines, .array values => braced (Outline.showAll outlines values)
  | .members [], .qualifier type _ => "@" ++ type.render
  | .members (given :: outlines), .qualifier type values =>
    "@" ++ type.render ++ "(" ++ ", ".intercalate (Outline.showMembers (given :: outlines) values)
      ++ ")"
  | _, _ => ""

def Outline.showAll : List Outline → List Value → List String
  | [], _ | _, [] => []
  | outline :: outlines, value :: values => outline.show value :: Outline.showAll outlines values

def Outline.showMembers : List (String × Outline) → NameMap (Option Value) → List String
  | [], _ => []
  | (name, outline) :: outlines, values =>
    (name ++ "=" ++ (NameMap.get? values name).join.elim "" outline.show)
      :: Outline.showMembers outlines values

end

/-! ## Members in order -/

theorem Schema.defaultsOrdered_iff {members : List (String × Option Literal)} :
    defaultsOrdered members = true ↔
      ∀ member ∈ members, ∀ default ∈ member.2, default.ordered = true := by
  induction members with
  | nil => simp [defaultsOrdered]
  | cons member members ih =>
    obtain ⟨name, declared⟩ := member
    cases declared <;> simp [defaultsOrdered, ih]

/-- A schema that was declared has its members in order, if the defaults have theirs. -/
theorem Schema.ordered_ofDeclarations {type : TypeExpr}
    {declarations : List (String × Option Literal)}
    (h : ∀ pair ∈ declarations, ∀ default ∈ pair.2, default.ordered = true) :
    (ofDeclarations type declarations).ordered = true := by
  rw [ofDeclarations, ordered, Bool.and_eq_true, decide_eq_true_iff, defaultsOrdered_iff]
  refine ⟨NameMap.ofList_increasing declarations, fun member hmember => ?_⟩
  exact h member (NameMap.mem_ofList hmember)

namespace Qualifier

theorem givenOrdered_iff {members : List (String × Literal)} :
    givenOrdered members = true ↔ ∀ member ∈ members, member.2.ordered = true := by
  induction members with
  | nil => simp [givenOrdered]
  | cons member members ih => simp [givenOrdered, ih]

theorem ordered_mk_iff {schema : Schema} {explicit : List (String × Literal)} :
    ordered ⟨schema, explicit⟩ = true ↔
      schema.ordered = true ∧ NameMap.Increasing explicit ∧ givenOrdered explicit = true := by
  rw [ordered, Bool.and_eq_true, Bool.and_eq_true, decide_eq_true_iff, and_assoc]

/-- A qualifier whose members were assigned has them in order, if the schema and the values assigned
    do. -/
theorem ordered_ofAssignments {schema : Schema} {assignments : List (String × Literal)}
    {qualifier : Qualifier} (h : ofAssignments schema assignments = .ok qualifier)
    (hschema : schema.ordered = true) (hvalues : ∀ pair ∈ assignments, pair.2.ordered = true) :
    qualifier.ordered = true := by
  obtain ⟨-, rfl⟩ := ofAssignments_eq_ok_iff.1 h
  rw [ordered_mk_iff, givenOrdered_iff]
  refine ⟨hschema, NameMap.ofList_increasing assignments, fun member hmember => ?_⟩
  exact hvalues member (NameMap.mem_ofList hmember)

/-- What is given in a qualifier is among its effective values. -/
theorem get?_values (qualifier : Qualifier) (h : NameMap.Increasing qualifier.explicit) :
    ∀ member ∈ qualifier.explicit,
      NameMap.get? (qualifier.effective.map (Prod.map id memberValue)) member.1 =
        some (some member.2.value) := by
  intro member hmember
  rw [NameMap.get?_map, get?_effective h, h.get?_eq_some_iff.2 hmember]
  rfl

end Qualifier

theorem Outline.showAll_scalars (scalars : List Scalar) :
    showAll (scalars.map fun _ => .scalar) (scalars.map .scalar) = scalars.map Scalar.render := by
  induction scalars with
  | nil => rfl
  | cons scalar scalars ih => rw [List.map_cons, List.map_cons, showAll, ih, Outline.show]; rfl

mutual

/-- The text of a literal tells its value and which members it gives, and nothing else. -/
theorem Literal.render_eq_show : ∀ literal : Literal, literal.ordered = true →
    literal.render = literal.outline.show literal.value
  | .scalar value, _ => by rw [Literal.render, Literal.outline, Literal.value, Outline.show]
  | .packed elements, _ => by
    rw [Literal.render, Literal.outline, Literal.value, Outline.show, Outline.showAll_scalars]
  | .objects elements, h => by
    rw [Literal.ordered] at h
    rw [Literal.render, Literal.outline, Literal.value, Outline.show,
      Literal.renderAll_eq_show elements h]
  | .qualifier qualifier, h => by
    rw [Literal.ordered] at h
    rw [Literal.render, Literal.outline, Literal.value, Qualifier.render_eq_show qualifier h]

theorem Qualifier.render_eq_show : ∀ qualifier : Qualifier, qualifier.ordered = true →
    qualifier.render = qualifier.outline.show qualifier.value
  | ⟨⟨type, declared⟩, []⟩, _ => by
    rw [Qualifier.render, Qualifier.outline, Qualifier.givenOutlines, Qualifier.value, Outline.show]
  | ⟨⟨type, declared⟩, given :: explicit⟩, h => by
    obtain ⟨-, hincreasing, hgiven⟩ := Qualifier.ordered_mk_iff.1 h
    have hvalues := Qualifier.get?_values ⟨⟨type, declared⟩, given :: explicit⟩ hincreasing
    rw [Qualifier.render, Qualifier.value_eq, Qualifier.outline,
      Qualifier.renderMembers_eq_show (given :: explicit) hgiven _ hvalues]
    rw [Qualifier.givenOutlines, Outline.show]

theorem Literal.renderAll_eq_show : ∀ elements : List Literal, Literal.allOrdered elements = true →
    Literal.renderAll elements =
      Outline.showAll (Literal.outlines elements) (Literal.values elements)
  | [], _ => by rw [Literal.renderAll, Literal.outlines, Literal.values, Outline.showAll]
  | element :: elements, h => by
    rw [Literal.allOrdered, Bool.and_eq_true] at h
    rw [Literal.renderAll, Literal.outlines, Literal.values, Outline.showAll,
      Literal.render_eq_show element h.1, Literal.renderAll_eq_show elements h.2]

theorem Qualifier.renderMembers_eq_show : ∀ members : List (String × Literal),
    Qualifier.givenOrdered members = true → ∀ values : NameMap (Option Value),
      (∀ member ∈ members, NameMap.get? values member.1 = some (some member.2.value)) →
        Qualifier.renderMembers members =
          Outline.showMembers (Qualifier.givenOutlines members) values
  | [], _, _, _ => by
    rw [Qualifier.renderMembers, Qualifier.givenOutlines, Outline.showMembers]
  | (name, given) :: members, h, values, hvalues => by
    rw [Qualifier.givenOrdered, Bool.and_eq_true] at h
    obtain ⟨hgiven, hmembers⟩ := List.forall_mem_cons.1 hvalues
    rw [Qualifier.renderMembers, Qualifier.givenOutlines, Outline.showMembers, hgiven,
      Literal.render_eq_show given h.1, Qualifier.renderMembers_eq_show members h.2 values hmembers]
    rfl

end

/-! ## Keys -/

namespace Key

def outline (key : Key) : Option Outline := key.qualifier.map Qualifier.outline

/-- Equal keys that show the same members have the same text. -/
theorem render_eq_of_beq {a b : Key} (hab : (a == b) = true)
    (houtline : a.outline = b.outline) : a.render = b.render := by
  obtain ⟨type, qualifier, hordered⟩ := a
  obtain ⟨type', qualifier', hordered'⟩ := b
  obtain ⟨rfl, hvalue⟩ := Prod.mk.inj (beq_iff.1 hab)
  cases qualifier with
  | none =>
    cases qualifier' with
    | none => rfl
    | some q' => cases hvalue
  | some q =>
    cases qualifier' with
    | none => cases hvalue
    | some q' =>
      have hrender : q.render = q'.render := by
        rw [q.render_eq_show hordered, q'.render_eq_show hordered', Option.some.inj hvalue,
          Option.some.inj houtline]
      exact congrArg (· ++ " " ++ type.render) hrender

end Key

/-! ## Edges -/

namespace Graph

/-- An edge and the text that names its end: the edge leads to the node of an equal key, and its
    text is the text of this key if both show the same members. -/
structure Edge (graph : Graph) (d : Key) (text : String) (key : Key) (node : Node) : Prop where
  text_eq : text = d.render
  mem : (key, node) ∈ graph.nodes.toList
  same : (key == d) = true
  node? : graph.node? d = some node
  names : d.outline = key.outline → text = key.render

variable {graph : Graph}

theorem edge_of_mem (hmissing : graph.missing = []) {key : Key}
    {node : Node} (hmem : (key, node) ∈ graph.nodes.toList) {d : Key}
    (hd : d ∈ node.dependencies) : ∃ key node, graph.Edge d d.render key node := by
  have hnode : graph.node? key = some node := node?_eq_some_iff.2 ⟨key, hmem, BEq.rfl⟩
  have hcontains := missing_eq_nil_iff.1 hmissing key node hnode d hd
  obtain ⟨target, htarget⟩ := contains_iff_node?.1 hcontains
  obtain ⟨key', hmem', hsame⟩ := node?_eq_some_iff.1 htarget
  exact ⟨key', target, rfl, hmem', hsame, htarget, Key.render_eq_of_beq (BEq.symm hsame)⟩

theorem edges_of_mem (hmissing : graph.missing = []) {key : Key}
    {node : Node} (hmem : (key, node) ∈ graph.nodes.toList) {keys : List Key}
    (hkeys : keys ⊆ node.dependencies) :
    List.Forall₂ (fun d text => ∃ key node, graph.Edge d text key node) keys
      (keys.map Key.render) := by
  rw [List.forall₂_map_right_iff, List.forall₂_same]
  exact fun d hd => edge_of_mem hmissing hmem (hkeys hd)

/-- A graph that passed validation misses nothing. -/
theorem missing_of_validate {options : ReportOptions} {targets : List TargetDecl}
    {found : List Diagnostic} {log : Array Event} {valid : ValidGraph}
    (h : ((graph.validate options targets found).run log).1 = .ok valid) : graph.missing = [] := by
  obtain ⟨events, -, hverdict⟩ := graph.validate_run options targets found log
  rw [h] at hverdict
  have hnone : graph.diagnostics targets found = [] := by
    by_contra hsome
    obtain ⟨rejection, hrejection, -⟩ := hverdict.rejected hsome
    cases hrejection
  obtain ⟨accepted, -, rfl⟩ := hverdict.accepted hnone
  exact accepted.missing_eq_nil

/-- What the export tells of a node: the text of its key, and for each dependency a text that
    names the node behind it. -/
structure Told (graph : Graph) (pair : Key × Node) (texts : NodeTexts) : Prop where
  key_eq : texts.key = pair.1.render
  dependencies : List.Forall₂ (fun d text => ∃ key node, graph.Edge d text key node) pair.2.eager
    texts.dependencies
  deferred : List.Forall₂ (fun d text => ∃ key node, graph.Edge d text key node) pair.2.deferred
    texts.deferred

/-- In a graph that passed validation every edge leads to a node, and its text is that of the
    node's key if the two keys show the same members. -/
theorem validate_names {options : ReportOptions} {targets : List TargetDecl}
    {found : List Diagnostic} {log : Array Event} {valid : ValidGraph}
    (h : ((graph.validate options targets found).run log).1 = .ok valid) :
    List.Forall₂ graph.Told graph.nodes.toList graph.texts := by
  have hmissing := missing_of_validate h
  rw [texts, List.forall₂_map_right_iff, List.forall₂_same]
  rintro ⟨key, node⟩ hmem
  exact ⟨rfl, edges_of_mem hmissing hmem (List.subset_append_left _ _),
    edges_of_mem hmissing hmem (List.subset_append_right _ _)⟩

end Graph

/-! ## Two ways of giving a member, and a default left implicit -/

namespace Dangling

def ports : Schema := .ofDeclarations (.plain "Ports") [("value", some (.scalar (.int 8080)))]

def config (explicit : List (String × Literal))
    (h : Qualifier.ordered ⟨ports, explicit⟩ = true) : Key :=
  ⟨.plain "Config", some ⟨ports, explicit⟩, h⟩

def app : Key := .plain "App"

/-- The graph of a provider, and of one that depends on it. -/
def graph (provided dependency : Key) : Graph :=
  .ofAdjacency [(provided, []), (app, [dependency])]

theorem validates (provided dependency : Key)
    (h : ((graph provided dependency).diagnostics [] []).isEmpty = true) :
    ∃ valid, (((graph provided dependency).validate .default [] []).run #[]).1 = .ok valid := by
  obtain ⟨events, -, hverdict⟩ := (graph provided dependency).validate_run .default [] [] #[]
  obtain ⟨valid, hvalid, -⟩ := hverdict.accepted (List.isEmpty_iff.1 h)
  exact ⟨valid, hvalid⟩

def packed : Key := config [("value", .packed (.ints [80, 443]))] rfl

def listed : Key :=
  config [("value", .objects [.scalar (.int 80), .scalar (.int 443)])] rfl

/-- A list of ports is given in both keys, though not in the same way. -/
theorem listed_names :
    (∃ valid, (((graph listed packed).validate .default [] []).run #[]).1 = .ok valid) ∧
      List.Forall₂ (graph listed packed).Told (graph listed packed).nodes.toList
        (graph listed packed).texts := by
  obtain ⟨valid, hvalid⟩ := validates listed packed (by decide +kernel)
  exact ⟨⟨valid, hvalid⟩, Graph.validate_names hvalid⟩

def implicit : Key := config [] rfl

def given : Key := config [("value", .scalar (.int 8080))] rfl

/-- The graph is valid and its one edge leads to a node, but no node has the text of the edge. -/
theorem app_dangles :
    (∃ valid, (((graph implicit given).validate .default [] []).run #[]).1 = .ok valid) ∧
      ((graph implicit given).node? given).isSome = true ∧
        ∃ texts ∈ (graph implicit given).texts, ∃ text ∈ texts.dependencies,
          text = given.render ∧ ∀ other ∈ (graph implicit given).texts, other.key ≠ text :=
  ⟨validates implicit given (by decide +kernel), by decide +kernel, by decide +kernel⟩

end Dangling

end Injection
