import Mathlib
import SqlTemplate.Proofs.Execution

/-!
# Loops with markers

A loop builds a list if its body begins with a part for the first element and a separator for all
the others, and ends with a part for the last element. The first part then stands once in front, the
last part once behind, and the bodies of the turns between them are joined with the separator.

The steps of a turn depend on where the loop is (`Node.markerSteps`), and one turn after another
they are the steps of the whole (`Node.flatMap_markerSteps`). Steps that do not fail give parts,
each of them from the flag that the step before has left (`Run.Gives`), and what has been added is
these parts one behind the other (`Run.all_eq_iff`). `Context.evaluate_loop_markers_iff` says what
is added by a loop with markers.
-/

namespace SqlTemplate

namespace Run

variable {f : Bool → Run} {fs gs : List (Bool → Run)} {enabled enabled' : Bool}
  {added : BoundSql} {parts : List BoundSql}

/-- None of the steps fails. Each is run from the flag that the one before has left, and gives a
part. -/
inductive Gives : List (Bool → Run) → Bool → List BoundSql → Bool → Prop where
  | nil (enabled : Bool) : Gives [] enabled [] enabled
  | cons {f : Bool → Run} {fs : List (Bool → Run)} {enabled between enabled' : Bool}
      {part : BoundSql} {parts : List BoundSql} (h : f enabled = ⟨part, between, none⟩)
      (hs : Gives fs between parts enabled') : Gives (f :: fs) enabled (part :: parts) enabled'

theorem andThen_eq_iff {r : Run} :
    r.andThen f = ⟨added, enabled', none⟩ ↔
      ∃ first between rest, r = ⟨first, between, none⟩ ∧ f between = ⟨rest, enabled', none⟩ ∧
        added = first ++ rest := by
  obtain ⟨first, between, failure⟩ := r
  constructor
  · intro h
    cases failure with
    | some e => cases h
    | none =>
        cases hf : f between with
        | mk rest enabled failure =>
            rw [andThen, hf] at h
            cases h
            exact ⟨first, between, rest, rfl, hf, rfl⟩
  · rintro ⟨_, _, rest, h, hrest, rfl⟩
    cases h
    rw [andThen, hrest]

theorem gives_nil_iff : Gives [] enabled parts enabled' ↔ parts = [] ∧ enabled = enabled' := by
  constructor
  · rintro ⟨⟩
    exact ⟨rfl, rfl⟩
  · rintro ⟨rfl, rfl⟩
    exact .nil enabled

theorem gives_cons_iff :
    Gives (f :: fs) enabled parts enabled' ↔
      ∃ part between rest, f enabled = ⟨part, between, none⟩ ∧ Gives fs between rest enabled' ∧
        parts = part :: rest := by
  constructor
  · rintro ⟨⟩
    exact ⟨_, _, _, ‹_›, ‹_›, rfl⟩
  · rintro ⟨part, between, rest, h, hs, rfl⟩
    exact .cons h hs

theorem gives_singleton_iff :
    Gives [f] enabled parts enabled' ↔
      ∃ part, f enabled = ⟨part, enabled', none⟩ ∧ parts = [part] := by
  rw [gives_cons_iff]
  simp only [gives_nil_iff]
  constructor
  · rintro ⟨part, _, _, h, ⟨rfl, rfl⟩, rfl⟩
    exact ⟨part, h, rfl⟩
  · rintro ⟨part, h, rfl⟩
    exact ⟨part, _, _, h, ⟨rfl, rfl⟩, rfl⟩

theorem gives_append_iff :
    Gives (fs ++ gs) enabled parts enabled' ↔
      ∃ before between after, Gives fs enabled before between ∧ Gives gs between after enabled' ∧
        parts = before ++ after := by
  induction fs generalizing enabled parts with
  | nil =>
      simp only [gives_nil_iff, List.nil_append]
      constructor
      · intro h
        exact ⟨[], enabled, parts, ⟨rfl, rfl⟩, h, rfl⟩
      · rintro ⟨_, _, after, ⟨rfl, rfl⟩, h, rfl⟩
        exact h
  | cons f fs ih =>
      simp only [List.cons_append, gives_cons_iff, ih]
      constructor
      · rintro ⟨part, e, _, h, ⟨before, between, after, hfs, hgs, rfl⟩, rfl⟩
        exact ⟨_, between, after, ⟨part, e, before, h, hfs, rfl⟩, hgs, rfl⟩
      · rintro ⟨_, between, after, ⟨part, e, before, h, hfs, rfl⟩, hgs, rfl⟩
        exact ⟨part, e, _, h, ⟨before, between, after, hfs, hgs, rfl⟩, rfl⟩

/-- Separators between the steps give separators between the parts. -/
theorem gives_intersperse_iff (sep : String) :
    Gives (fs.intersperse (ofSql sep)) enabled parts enabled' ↔
      ∃ own, Gives fs enabled own enabled' ∧ parts = own.intersperse (.ofSql sep) := by
  induction fs generalizing enabled parts with
  | nil => simp [gives_nil_iff, and_comm]
  | cons f fs ih =>
      cases fs with
      | nil =>
          simp only [List.intersperse_singleton, gives_singleton_iff]
          constructor
          · rintro ⟨part, h, rfl⟩
            exact ⟨[part], ⟨part, h, rfl⟩, rfl⟩
          · rintro ⟨_, ⟨part, h, rfl⟩, rfl⟩
            exact ⟨part, h, rfl⟩
      | cons g fs =>
          rw [List.intersperse_cons_cons]
          constructor
          · intro h
            obtain ⟨part, between, _, hf, hrest, rfl⟩ := gives_cons_iff.1 h
            obtain ⟨_, _, _, hsep, hseparated, rfl⟩ := gives_cons_iff.1 hrest
            cases hsep
            obtain ⟨_, hown, rfl⟩ := ih.1 hseparated
            cases hown with
            | cons hg hfs => exact ⟨_, .cons hf (.cons hg hfs), rfl⟩
          · rintro ⟨_, hown, rfl⟩
            cases hown with
            | cons hf hrest =>
                have hseparated := ih.2 ⟨_, hrest, rfl⟩
                cases hrest with
                | cons hg hfs => exact .cons hf (.cons rfl hseparated)

theorem Gives.length_eq (h : Gives fs enabled parts enabled') : parts.length = fs.length := by
  induction h with
  | nil => rfl
  | cons h hs ih => rw [List.length_cons, List.length_cons, ih]

/-- A sequence does not fail if its steps do not, and it adds what they give. -/
theorem all_eq_iff :
    all fs enabled = ⟨added, enabled', none⟩ ↔
      ∃ parts, Gives fs enabled parts enabled' ∧ added = .join parts := by
  induction fs generalizing enabled added with
  | nil =>
      simp only [gives_nil_iff, all, idle]
      constructor
      · rintro ⟨⟩
        exact ⟨[], ⟨rfl, rfl⟩, rfl⟩
      · rintro ⟨_, ⟨rfl, rfl⟩, rfl⟩
        rfl
  | cons f fs ih =>
      simp only [all, andThen_eq_iff, ih, gives_cons_iff]
      constructor
      · rintro ⟨part, between, _, h, ⟨parts, hs, rfl⟩, rfl⟩
        exact ⟨_, ⟨part, between, parts, h, hs, rfl⟩, rfl⟩
      · rintro ⟨_, ⟨part, between, parts, h, hs, rfl⟩, rfl⟩
        exact ⟨part, between, _, h, ⟨parts, hs, rfl⟩, rfl⟩

/-- Running sequences one behind the other is running all of their steps. -/
theorem all_flatMap {α : Type} (xs : List α) (steps : α → List (Bool → Run)) :
    all (xs.flatMap steps) = all (xs.map fun x => all (steps x)) := by
  induction xs with
  | nil => rfl
  | cons x xs ih =>
      funext enabled
      rw [List.flatMap_cons, List.map_cons, all_append, all, ih]

end Run

namespace Loop

/-- The loop at the given place. -/
def turn (l : Loop) (index : Nat) : Loop :=
  { l with index := index }

theorem turns_eq (l : Loop) : l.turns = (List.range l.elements.length).map l.turn := rfl

theorem isFirst_turn_zero (l : Loop) : (l.turn 0).isFirst = true := rfl

theorem isFirst_turn_succ (l : Loop) (index : Nat) : (l.turn (index + 1)).isFirst = false := rfl

theorem isLast_turn (l : Loop) (index : Nat) :
    (l.turn index).isLast = decide (index + 1 = l.elements.length) := rfl

/-- The value at the root of a path in a turn is the element at its place. -/
theorem resolve_turn {l : Loop} {index : Nat} (h : index < l.elements.length) (env : Environment)
    (loops : List Loop) :
    PathRoot.loop.resolve env (l.turn index :: loops) =
      .ok (l.elements[index], l.elements[index].type) := by
  simp [PathRoot.resolve, current, turn, h]

end Loop

namespace Template.Node

section Turns

variable (embedding : Variable.Embedding) (env : Environment) (loops : List Loop)
  (opening body closing : List Node) (sep : String)

/-- Evaluating nodes that stand one behind the other is running them one behind the other. -/
theorem evaluateAll_append (enabled : Bool) (ns ms : List Node) :
    evaluateAll embedding env loops enabled (ns ++ ms) =
      (evaluateAll embedding env loops enabled ns).andThen fun enabled =>
        evaluateAll embedding env loops enabled ms := by
  induction ns generalizing enabled with
  | nil => rw [List.nil_append, evaluateAll, Run.idle_andThen]
  | cons n ns ih =>
      rw [List.cons_append, evaluateAll, evaluateAll, Run.andThen_assoc]
      simp only [ih]

/-- The nodes as a step in a turn of a loop. -/
def inTurn (ns : List Node) (turn : Loop) : Bool → Run := fun enabled =>
  evaluateAll embedding env (turn :: loops) enabled ns

/-- The body of a loop with markers. -/
def withMarkers : List Node :=
  .first opening :: .separator sep :: (body ++ [.last closing])

/-- A turn of a loop with markers begins with the first part or with the separator. -/
def frontSteps (turn : Loop) : List (Bool → Run) :=
  if turn.isFirst then [inTurn embedding env loops opening turn] else [.ofSql sep]

/-- The last turn of a loop with markers ends with the last part. -/
def rearSteps (turn : Loop) : List (Bool → Run) :=
  if turn.isLast then [inTurn embedding env loops closing turn] else []

/-- What there is to do in a turn of a loop with markers. -/
def markerSteps (turn : Loop) : List (Bool → Run) :=
  frontSteps embedding env loops opening sep turn ++
    inTurn embedding env loops body turn :: rearSteps embedding env loops closing turn

theorem inTurn_front (turn : Loop) :
    inTurn embedding env loops [.first opening, .separator sep] turn =
      Run.all (frontSteps embedding env loops opening sep turn) := by
  funext enabled
  rw [inTurn, evaluateAll, evaluate, List.head?_cons, Option.any_some, frontSteps]
  cases h : turn.isFirst with
  | true =>
      rw [if_pos rfl, if_pos rfl]
      congr 1
      funext enabled
      rw [evaluateAll_singleton, evaluate, List.head?_cons, Option.any_some, h]
      rfl
  | false =>
      rw [if_neg Bool.false_ne_true, if_neg Bool.false_ne_true, Run.idle_andThen, evaluateAll,
        evaluate, List.head?_cons, Option.any_some, h]
      rfl

theorem inTurn_rear (turn : Loop) :
    inTurn embedding env loops [.last closing] turn =
      Run.all (rearSteps embedding env loops closing turn) := by
  funext enabled
  rw [inTurn, evaluateAll_singleton, evaluate, List.head?_cons, Option.any_some, rearSteps]
  cases h : turn.isLast with
  | true => exact (Run.andThen_idle _).symm
  | false => rfl

/-- What a turn does. -/
theorem inTurn_withMarkers (turn : Loop) :
    inTurn embedding env loops (withMarkers opening body closing sep) turn =
      Run.all (markerSteps embedding env loops opening body closing sep turn) := by
  funext enabled
  have hmarkers : withMarkers opening body closing sep =
      [.first opening, .separator sep] ++ (body ++ [.last closing]) := rfl
  rw [inTurn, hmarkers, evaluateAll_append, markerSteps, Run.all_append, ← inTurn_front, inTurn]
  congr 1
  funext enabled
  rw [evaluateAll_append, Run.all, ← inTurn_rear]
  rfl

/-- What is done from the body of a turn on, up to the end of the loop. -/
theorem flatMap_markerSteps_behind (l : Loop) (index more : Nat)
    (h : index + more + 1 = l.elements.length) :
    inTurn embedding env loops body (l.turn index) ::
        (rearSteps embedding env loops closing (l.turn index) ++
          ((List.range' (index + 1) more).map l.turn).flatMap
            (markerSteps embedding env loops opening body closing sep)) =
      (((List.range' index (more + 1)).map l.turn).map
          (inTurn embedding env loops body)).intersperse (.ofSql sep) ++
        [inTurn embedding env loops closing (l.turn (l.elements.length - 1))] := by
  -- The induction is on how many turns are left, as only the last one of them has a rear.
  induction more generalizing index with
  | zero =>
      have hindex : l.elements.length - 1 = index := by omega
      rw [rearSteps, Loop.isLast_turn, decide_eq_true h, if_pos rfl, hindex]
      rfl
  | succ more ih =>
      have hlast : index + 1 ≠ l.elements.length := by omega
      have hnext := ih (index + 1) (by omega)
      have hturn : markerSteps embedding env loops opening body closing sep (l.turn (index + 1)) =
          .ofSql sep :: inTurn embedding env loops body (l.turn (index + 1)) ::
            rearSteps embedding env loops closing (l.turn (index + 1)) := by
        rw [markerSteps, frontSteps, Loop.isFirst_turn_succ, if_neg Bool.false_ne_true]
        rfl
      rw [rearSteps, Loop.isLast_turn, decide_eq_false hlast, if_neg Bool.false_ne_true,
        List.nil_append, List.range'_succ, List.map_cons, List.flatMap_cons, hturn,
        List.cons_append, List.cons_append, hnext]
      rfl

end Turns

section Sequences

variable {embedding : Variable.Embedding} {env : Environment} {loops : List Loop}
  {opening body closing : List Node} {sep : String} {enabled enabled' : Bool} {added : BoundSql}

/-- One turn after another, a loop with markers does each turn's body with a separator between them,
the first part in front and the last part behind. -/
theorem flatMap_markerSteps {l : Loop} (hne : l.elements ≠ []) :
    l.turns.flatMap (markerSteps embedding env loops opening body closing sep) =
      inTurn embedding env loops opening (l.turn 0) ::
        ((l.turns.map (inTurn embedding env loops body)).intersperse (.ofSql sep) ++
          [inTurn embedding env loops closing (l.turn (l.elements.length - 1))]) := by
  obtain ⟨more, hmore⟩ := Nat.exists_eq_succ_of_ne_zero (mt List.length_eq_zero_iff.1 hne)
  have hbehind := flatMap_markerSteps_behind embedding env loops opening body closing sep l 0 more
    (by omega)
  have hturns : l.turns = (List.range' 0 (more + 1)).map l.turn := by
    rw [Loop.turns_eq, hmore, List.range_eq_range']
  rw [hturns, ← hbehind, List.range'_succ, List.map_cons, List.flatMap_cons, markerSteps,
    frontSteps, Loop.isFirst_turn_zero, if_pos rfl]
  rfl

/-- A loop that does not fail goes through the elements of a list. -/
theorem evaluate_forBlock_iff {expression : String} {path : Path} {options : Options} :
    (forBlock expression path options body).evaluate embedding env loops enabled =
        ⟨added, enabled', none⟩ ↔
      ∃ r elements, path.resolve expression env loops = .ok r ∧ r.target = .list elements ∧
        Run.all ((Loop.turns ⟨expression, elements, 0, options.like⟩).map
          (inTurn embedding env loops body)) enabled = ⟨added, enabled', none⟩ := by
  rw [evaluate]
  cases hr : path.resolve expression env loops with
  | error e => simp [Run.failed]
  | ok r =>
      constructor
      · intro h
        dsimp only at h
        split at h
        next elements htarget => exact ⟨r, elements, rfl, htarget, h⟩
        next => cases h
      · rintro ⟨_, elements, ⟨⟩, htarget, h⟩
        dsimp only
        rw [htarget]
        exact h

/-- What the turns of a loop with markers give if none of them fails. -/
theorem all_withMarkers_iff {l : Loop} (hne : l.elements ≠ []) (sep : String) :
    Run.all (l.turns.map (inTurn embedding env loops (withMarkers opening body closing sep)))
        enabled = ⟨added, enabled', none⟩ ↔
      ∃ first parts last before behind,
        inTurn embedding env loops opening (l.turn 0) enabled = ⟨first, before, none⟩ ∧
        Run.Gives (l.turns.map (inTurn embedding env loops body)) before parts behind ∧
        inTurn embedding env loops closing (l.turn (l.elements.length - 1)) behind =
          ⟨last, enabled', none⟩ ∧
        added = .join (first :: (parts.intersperse (.ofSql sep) ++ [last])) := by
  rw [funext (inTurn_withMarkers embedding env loops opening body closing sep), ← Run.all_flatMap,
    flatMap_markerSteps hne, Run.all_eq_iff]
  constructor
  · rintro ⟨_, h, rfl⟩
    obtain ⟨first, before, _, hfirst, hrest, rfl⟩ := Run.gives_cons_iff.1 h
    obtain ⟨_, behind, _, hbodies, hend, rfl⟩ := Run.gives_append_iff.1 hrest
    obtain ⟨parts, hparts, rfl⟩ := (Run.gives_intersperse_iff sep).1 hbodies
    obtain ⟨last, hlast, rfl⟩ := Run.gives_singleton_iff.1 hend
    exact ⟨first, parts, last, before, behind, hfirst, hparts, hlast, rfl⟩
  · rintro ⟨first, parts, last, before, behind, hfirst, hparts, hlast, rfl⟩
    have hbodies := (Run.gives_intersperse_iff sep).2 ⟨parts, hparts, rfl⟩
    have hend := Run.gives_singleton_iff.2 ⟨last, hlast, rfl⟩
    exact ⟨_, .cons hfirst (Run.gives_append_iff.2 ⟨_, behind, _, hbodies, hend, rfl⟩), rfl⟩

end Sequences

end Template.Node

namespace Context

open Template (Node evaluateNodes)

theorem goOn_eq_none_iff {c c' : Context} {f : Bool → Run} :
    c.goOn f = (c', none) ↔
      ∃ added enabled, f c.enabled = ⟨added, enabled, none⟩ ∧
        c' = (c.add added).setEnabled enabled := by
  rw [goOn_eq_iff]
  constructor
  · rintro ⟨rfl, hfailure⟩
    refine ⟨(f c.enabled).added, (f c.enabled).enabled, ?_, rfl⟩
    rw [hfailure]
  · rintro ⟨added, enabled, h, rfl⟩
    rw [h]
    exact ⟨rfl, rfl⟩

/-- A loop with markers that does not fail adds nothing for an empty list. Otherwise it adds what
the first part gives at the first element, what the body gives at all of them with the separator
between, and what the last part gives at the last element. -/
theorem evaluate_loop_markers_iff {c c' : Context} {loops : List Loop} {expression sep : String}
    {path : Path} {options : Options} {opening body closing : List Node} :
    c.evaluate loops [.forBlock expression path options
        (.first opening :: .separator sep :: (body ++ [.last closing]))] = (c', none) ↔
      ∃ r elements, path.resolve expression c.environment loops = .ok r ∧
        r.target = .list elements ∧
        let turn : Nat → Loop := fun index => ⟨expression, elements, index, options.like⟩
        let run : List Node → Nat → Bool → Run := fun ns index enabled =>
          evaluateNodes c.environment (turn index :: loops) enabled ns
        (∀ index (h : index < elements.length),
          PathRoot.loop.resolve c.environment (turn index :: loops) =
            .ok (elements[index], elements[index].type)) ∧
        (elements = [] ∧ c' = c ∨
          elements ≠ [] ∧ ∃ first parts last before behind enabled,
            run opening 0 c.enabled = ⟨first, before, none⟩ ∧
            Run.Gives ((List.range elements.length).map (run body)) before parts behind ∧
            run closing (elements.length - 1) behind = ⟨last, enabled, none⟩ ∧
            parts.length = elements.length ∧
            c' = (c.add ⟨first.sql ++ sep.intercalate (parts.map BoundSql.sql) ++ last.sql,
              first.values ++ parts.flatMap BoundSql.values ++ last.values,
              first.types ++ parts.flatMap BoundSql.types ++ last.types⟩).setEnabled enabled) := by
  have hnodes : ∀ (turn : Loop) (enabled : Bool) (ns : List Node),
      evaluateNodes c.environment (turn :: loops) enabled ns =
        Node.inTurn (Template.embedding c.environment.remainingDepth c.environment) c.environment
          loops ns turn enabled :=
    fun turn enabled ns => Template.evaluateWithin_eq_evaluateAll _ _ (turn :: loops) enabled ns
  have hsame : (c.add .empty).setEnabled c.enabled = c := by
    rw [add, setEnabled, BoundSql.append_empty]
  rw [evaluate_singleton, goOn_eq_none_iff]
  simp only [hnodes]
  constructor
  · rintro ⟨added, enabled, h, rfl⟩
    obtain ⟨r, elements, hr, htarget, h⟩ := Node.evaluate_forBlock_iff.1 h
    let l : Loop := ⟨expression, elements, 0, options.like⟩
    refine ⟨r, elements, hr, htarget, fun index hindex => l.resolve_turn hindex _ _, ?_⟩
    by_cases hne : elements = []
    · left
      subst hne
      cases h
      exact ⟨rfl, hsame⟩
    · right
      obtain ⟨first, parts, last, before, behind, hfirst, hparts, hlast, rfl⟩ :=
        (Node.all_withMarkers_iff (l := l) hne sep).1 h
      rw [Loop.turns_eq, List.map_map] at hparts
      refine ⟨hne, first, parts, last, before, behind, enabled, hfirst, hparts, hlast, ?_, ?_⟩
      · simpa using hparts.length_eq
      · rw [BoundSql.join_enclosed]
  · rintro ⟨r, elements, hr, htarget, -, ⟨rfl, rfl⟩ | ⟨hne, first, parts, last, before, behind,
      enabled, hfirst, hparts, hlast, -, rfl⟩⟩
    · exact ⟨.empty, c'.enabled, Node.evaluate_forBlock_iff.2 ⟨r, [], hr, htarget, rfl⟩,
        hsame.symm⟩
    · let l : Loop := ⟨expression, elements, 0, options.like⟩
      have hturns : Run.Gives (l.turns.map (Node.inTurn (Template.embedding
          c.environment.remainingDepth c.environment) c.environment loops body)) before parts
          behind := by
        rw [Loop.turns_eq, List.map_map]
        exact hparts
      have hall := (Node.all_withMarkers_iff (l := l) hne sep).2
        ⟨first, parts, last, before, behind, hfirst, hturns, hlast, rfl⟩
      rw [BoundSql.join_enclosed] at hall
      exact ⟨_, enabled, Node.evaluate_forBlock_iff.2 ⟨r, elements, hr, htarget, hall⟩, rfl⟩

end Context

end SqlTemplate
