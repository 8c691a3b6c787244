import Mathlib
import SqlTemplate.Proofs.Grammar

/-!
# Nodes in nodes

Nodes stand in other nodes, part by part (`Node.parts`), and in a loop if one of those around them is
one. A property of nodes may depend on that. A node has it throughout if it has it itself and all
nodes in it have it where they stand (`Node.Throughout`).

What is read from a text has a property throughout if its texts and what its comments say have it
(`throughout_of_readNodes`). A connector is no text of its own but cut from one, so the property has
to pass from a text to the connector at its start (`Node.PassesToConnectors`).
-/

namespace SqlTemplate.Template

namespace Node

/-- The nodes in the node, part by part. -/
def parts : Node → List (List Node)
  | .ifBlock _ body otherwise => body :: otherwise.toList
  | .forBlock _ _ _ body | .block body | .first body | .last body => [body]
  | _ => []

/-- Whether the nodes in the node stand in a loop because of it. -/
def isLoop : Node → Bool
  | .forBlock .. => true
  | _ => false

/-- The node and those in it have the property; the flag says whether the node stands in a loop. -/
inductive Throughout (P : Bool → Node → Prop) : Bool → Node → Prop where
  | node {inLoop : Bool} {n : Node} (hself : P inLoop n)
      (hparts : ∀ part ∈ n.parts, ∀ m ∈ part, Throughout P (inLoop || n.isLoop) m) :
      Throughout P inLoop n

/-- If a text has the property, so has the connector at its start with the rest. -/
def PassesToConnectors (P : Bool → Node → Prop) : Prop :=
  ∀ ⦃inLoop s connector rest⦄, cutConnector? (String.toList s) = some (connector, rest) →
    P inLoop (.text s) → P inLoop (.connector (String.ofList connector) (String.ofList rest))

variable {P : Bool → Node → Prop} {inLoop : Bool} {n : Node}

theorem Throughout.self (h : n.Throughout P inLoop) : P inLoop n := by
  obtain ⟨hself, -⟩ := h
  exact hself

theorem Throughout.parts (h : n.Throughout P inLoop) {part : List Node} (hpart : part ∈ n.parts) :
    ∀ m ∈ part, m.Throughout P (inLoop || n.isLoop) := by
  obtain ⟨-, hparts⟩ := h
  exact hparts part hpart

/-- For a node without nodes in it only the node itself counts. -/
theorem throughout_of_parts_eq_nil (hparts : n.parts = []) (hself : P inLoop n) :
    n.Throughout P inLoop := by
  refine .node hself ?_
  rw [hparts]
  exact List.forall_mem_nil _

end Node

variable {P : Bool → Node → Prop} {inLoop : Bool}

theorem throughout_of_mem_adjustConnector (hP : Node.PassesToConnectors P) {ns : List Node}
    (h : ∀ n ∈ ns, n.Throughout P inLoop) : ∀ n ∈ adjustConnector ns, n.Throughout P inLoop := by
  rw [adjustConnector.eq_def]
  split
  next =>
    split
    next hcut =>
      rw [List.forall_mem_cons] at h ⊢
      exact ⟨Node.throughout_of_parts_eq_nil rfl (hP hcut h.1.self), h.2⟩
    next => exact h
  next => exact h

/-- A block has the property throughout if it has it itself and the nodes put in it do. -/
theorem Opening.throughout_node (hP : Node.PassesToConnectors P) {o : Opening} {body : List Node}
    {otherwise : Option (List Node)} (hself : P inLoop (o.node body otherwise))
    (hbody : ∀ m ∈ body, m.Throughout P (inLoop || o.isLoop))
    (hotherwise : ∀ second ∈ otherwise, ∀ m ∈ second, m.Throughout P (inLoop || o.isLoop)) :
    (o.node body otherwise).Throughout P inLoop := by
  refine .node hself ?_
  cases o with
  | ifBlock condition =>
      intro part hpart
      rcases List.mem_cons.1 hpart with rfl | hpart
      · exact throughout_of_mem_adjustConnector hP hbody
      · obtain ⟨second, hsecond, rfl⟩ := Option.map_eq_some_iff.1 (Option.mem_toList.1 hpart)
        exact throughout_of_mem_adjustConnector hP (hotherwise second hsecond)
  | forBlock | block | first | last =>
      intro part hpart
      obtain rfl := List.mem_singleton.1 hpart
      exact hbody

/-- What the comment says has the property, whatever is put in it. -/
def Item.Has (P : Node → Prop) : Item → Prop
  | .node n => P n
  | .opening o => ∀ body otherwise, P (o.node body otherwise)
  | .closing _ => True

namespace Source

variable {s : Source}

/-- A comment that is a node has no nodes in it. -/
theorem parts_of_item_eq_ok {p : Place} {testValue : List Char} {n : Node}
    (h : s.item inLoop p testValue = .ok (.node n)) : n.parts = [] := by
  rw [item_eq_ok_iff] at h
  generalize Directive.ofBody p.body = d at h
  cases h with
  | _ => rfl

/-- The nodes that the rules allow have the property throughout, if texts and what the comments
among the lexemes say have it. -/
theorem Reads.throughout {ls all : List Lexeme} {ns : List Node} {c : Closing} {rest : List Lexeme}
    (h : s.Reads inLoop ls ns c rest) (hls : ls ⊆ all) (hP : Node.PassesToConnectors P)
    (htext : ∀ inLoop t, P inLoop (.text t))
    (hcomment : ∀ body start testValue, .comment body start testValue ∈ all →
      ∀ inLoop i, s.item inLoop ⟨body, start⟩ testValue = .ok i → i.Has (P inLoop)) :
    ∀ n ∈ ns, n.Throughout P inLoop := by
  induction h with
  | stop | closing => exact List.forall_mem_nil _
  | text _ ih =>
      refine List.forall_mem_cons.2 ⟨?_, ih (List.subset_of_cons_subset hls)⟩
      exact Node.throughout_of_parts_eq_nil rfl (htext _ _)
  | node hitem _ ih =>
      refine List.forall_mem_cons.2 ⟨?_, ih (List.subset_of_cons_subset hls)⟩
      refine Node.throughout_of_parts_eq_nil (parts_of_item_eq_ok hitem) ?_
      exact hcomment _ _ _ (hls List.mem_cons_self) _ _ hitem
  | block hitem hpart _ ihpart ihrest =>
      have hself := hcomment _ _ _ (hls List.mem_cons_self) _ _ hitem
      have hls := List.subset_of_cons_subset hls
      refine List.forall_mem_cons.2 ⟨?_, ihrest (List.Subset.trans hpart.isSuffix.subset hls)⟩
      exact Opening.throughout_node hP (hself _ _) (ihpart hls) fun _ h => nomatch h
  | parts hitem _ hpart hsecond _ ihpart ihsecond ihrest =>
      have hself := hcomment _ _ _ (hls List.mem_cons_self) _ _ hitem
      have hls := List.subset_of_cons_subset hls
      have hmid := List.Subset.trans hpart.isSuffix.subset hls
      refine List.forall_mem_cons.2 ⟨?_, ihrest (List.Subset.trans hsecond.isSuffix.subset hmid)⟩
      refine Opening.throughout_node hP (hself _ _) (ihpart hls) ?_
      rintro second ⟨⟩
      exact ihsecond hmid

end Source

/-- What is read from a text has the property throughout, if texts and what the comments in it say
have it. -/
theorem throughout_of_readNodes {text : String} {ns : List Node}
    (h : readNodes text inLoop = .ok ns) (hP : Node.PassesToConnectors P)
    (htext : ∀ inLoop t, P inLoop (.text t))
    (hcomment : ∀ body start testValue,
      .comment body start testValue ∈ (Lexeme.readAll (.ofText text)).1 →
      ∀ s inLoop i, Source.item s inLoop ⟨body, start⟩ testValue = .ok i → i.Has (P inLoop)) :
    ∀ n ∈ ns, n.Throughout P inLoop :=
  (readNodes_eq_ok_iff.1 h).throughout (List.Subset.refl _) hP htext
    fun body start testValue hmem => hcomment body start testValue hmem _

end SqlTemplate.Template
