import SqlTemplate.Like
import SqlTemplate.Value.Basic

/-!
# Loops

A loop goes through the elements of a list. Loops stand in one another, so the state of
all of them is a list with the innermost loop at its head. A LIKE option of a loop holds
for the loops in it that have none.
-/

namespace SqlTemplate

/-- A loop at one of its elements. -/
structure Loop where
  /-- The text of the path to the list, and its options. -/
  expression : String
  elements : List Value
  /-- The place of the current element. -/
  index : Nat
  /-- The LIKE option of the loop itself. -/
  like : Option Like
deriving Inhabited

namespace Loop

/-- The current element; null behind the last one. -/
def current (l : Loop) : Value :=
  (l.elements[l.index]?).getD .null

def isFirst (l : Loop) : Bool :=
  l.index == 0

def isLast (l : Loop) : Bool :=
  l.index + 1 == l.elements.length

/-- The loop at each of its elements. -/
def turns (l : Loop) : List Loop :=
  (List.range l.elements.length).map fun index => { l with index := index }

/-- The LIKE option of the innermost loop that has one. -/
def inheritedLike (loops : List Loop) : Option Like :=
  loops.findSome? Loop.like

@[simp] theorem inheritedLike_nil : inheritedLike [] = none := rfl

theorem inheritedLike_cons (l : Loop) (loops : List Loop) :
    inheritedLike (l :: loops) = l.like.or (inheritedLike loops) := by
  cases h : l.like <;> simp [inheritedLike, List.findSome?, h]

@[simp] theorem length_turns (l : Loop) : l.turns.length = l.elements.length := by
  simp [turns]

end Loop

end SqlTemplate
