import Mathlib
import SqlTemplate.Proofs.NestedNodes

/-!
# Nodes in loops

Some nodes have a meaning in a loop only: the parts for the first and the last element, the
separator, and what follows a path that starts at the element of a loop (`Node.needsLoop`).
Nodes are well scoped if every one of them, at any depth, stands in a loop if it has to
(`Node.IsScoped`). Whatever is read from a text is (`wellScoped_of_readNodes`).
-/

namespace SqlTemplate.Template

namespace Node

/-- The paths that the node follows, without those of the nodes in it. -/
def paths : Node → List Path
  | .bind v | .embedded v _ => [v.path]
  | .ifBlock condition _ _ => condition.paths
  | .forBlock _ path _ _ => [path]
  | _ => []

/-- Whether the node has a meaning in a loop only. -/
def needsLoop : Node → Bool
  | .first _ | .last _ | .separator _ => true
  | n => n.paths.any Path.usesLoop

/-- The node stands in a loop if it has to; the flag says whether it does. -/
def IsScoped (inLoop : Bool) (n : Node) : Prop :=
  n.needsLoop = true → inLoop = true

theorem passesToConnectors_isScoped : PassesToConnectors IsScoped :=
  fun _ _ _ _ _ _ h => nomatch h

theorem needsLoop_of_mem_paths {n : Node} {p : Path} (hp : p ∈ n.paths)
    (h : p.usesLoop = true) : n.needsLoop = true := by
  have hany : n.paths.any Path.usesLoop = true := List.any_eq_true.2 ⟨p, hp, h⟩
  cases n with
  | first | last | separator => rfl
  | _ => exact hany

end Node

/-- What has a meaning in a loop only is accepted in a loop only. -/
theorem Source.isScoped_of_item_eq_ok {s : Source} {inLoop : Bool} {p : Place}
    {testValue : List Char} {i : Item} (h : s.item inLoop p testValue = .ok i) :
    i.Has (Node.IsScoped inLoop) := by
  rw [item_eq_ok_iff] at h
  generalize Directive.ofBody p.body = d at h
  cases h with
  | ifMark hcondition => exact fun _ _ => (readCondition_eq_ok_iff.1 hcondition).2
  | forMark hpath =>
      obtain ⟨-, -, -, hloop, -⟩ := readPath_eq_ok_iff.1 hpath
      exact fun _ _ => by simpa [Node.IsScoped, Opening.node, Node.needsLoop, Node.paths] using hloop
  | bind hv | embedded hv =>
      obtain ⟨-, -, -, hloop, -⟩ := readPath_eq_ok_iff.1 (readVariable_eq_ok_iff.1 hv).1
      simpa [Item.Has, Node.IsScoped, Node.needsLoop, Node.paths] using hloop
  | nextMark hloop => exact fun _ => hloop
  | firstMark hloop | lastMark hloop => exact fun _ _ _ => hloop
  | plain => exact fun h => nomatch h
  | beginMark => exact fun _ _ h => nomatch h
  | endMark | elseMark => trivial

/-- Whatever is read from a text is well scoped. -/
theorem wellScoped_of_readNodes {text : String} {inLoop : Bool} {ns : List Node}
    (h : readNodes text inLoop = .ok ns) : ∀ n ∈ ns, n.Throughout Node.IsScoped inLoop :=
  throughout_of_readNodes h Node.passesToConnectors_isScoped (fun _ _ h => nomatch h)
    fun _ _ _ _ _ _ _ hitem => Source.isScoped_of_item_eq_ok hitem

end SqlTemplate.Template
