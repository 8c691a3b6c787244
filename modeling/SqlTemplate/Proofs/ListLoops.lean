import Mathlib
import SqlTemplate.Proofs.ListExpansion
import SqlTemplate.Proofs.LoopMarkers
import SqlTemplate.Proofs.PathTexts
import SqlTemplate.Proofs.Relexing
import SqlTemplate.Proofs.WrittenTerms

/-!
# Loops over lists of values

The elements of a list are bound at once by a variable with a parenthesized test value, or one by
one by a loop with markers. The two texts are read, whatever plain path stands in them
(`readNodes_listText`, `readNodes_loopText`), and they add the same
(`Context.evaluate_loopText_listText`) if the elements are neither nulls nor lists: a null is
skipped in a list and not in a loop, and a list in a list is bound as it is and cannot be bound as
an element of a loop.
-/

namespace SqlTemplate

section Paths

variable {p : Path} {c : Char}

/-- A plain path is written without blanks, and without marks of comments and options. -/
theorem Path.IsPlain.not_mem_text (h : p.IsPlain) (hc : c ∈ [' ', '$', '*', ':']) :
    c ∉ p.text.toList := by
  intro hmem
  rcases h.isPathText.chars c hmem with hpath | hpath
  · fin_cases hc <;> exact absurd hpath (by decide)
  · fin_cases hc <;> exact absurd hpath (by decide)

theorem Path.IsPlain.trim_text (h : p.IsPlain) : Text.trim p.text.toList = p.text.toList :=
  Text.trim_of_forall_isBlank_eq_false fun c hc => (h.isPathText.chars c hc).isBlank_eq_false

theorem Path.IsPlain.not_isInfix_closing (h : p.IsPlain) :
    ¬ Template.commentClosing <:+: p.text.toList :=
  fun hclosing => h.not_mem_text (c := '*') (by decide) (hclosing.subset (by decide))

end Paths

namespace Template

variable {p : Path}

/-- A comment with a plain path that is no keyword stands for a value. -/
theorem Directive.ofBody_path (h : p.IsPlain) (hword : p.text.toList ∉ keywords) :
    ofBody p.text.toList = .bind p.text.toList := by
  have hopenings : ∀ o ∈ openings, ' ' ∈ o.1.toList ∨ '$' ∈ o.1.toList := by
    simp [openings, EmbeddedMode.sigil]
  rw [ofBody, h.trim_text, ofKeyword?_eq_none hword]
  dsimp only
  split
  next d hd =>
    obtain ⟨o, ho, e, htext, -⟩ := append_of_findSome?_openings hd
    have hmem : ∀ c ∈ o.1.toList, c ∈ p.text.toList := by
      intro c hc
      rw [htext]
      exact List.mem_append_left e hc
    rcases hopenings o ho with ho | ho
    · exact absurd (hmem _ ho) (h.not_mem_text (by decide))
    · exact absurd (hmem _ ho) (h.not_mem_text (by decide))
  next =>
    obtain ⟨c, s, htext, hc⟩ := h.exists_cons
    rw [htext, namesValue, if_pos]
    simpa using hc

/-- A path without a colon has no options. -/
theorem Source.readPath_of_ofText {e : List Char} (h : Path.ofText e = .ok p) {inLoop : Bool}
    (hloop : p.usesLoop = true → inLoop = true) (hcolon : ':' ∉ e) (s : Source) (place : Place) :
    s.readPath inLoop place e = .ok (p, .none) := by
  have hsplit : Options.split (String.ofList e) = .ok (Text.trim e, .none) := by
    rw [Options.split, String.toList_ofList, (Text.cutAtChar?_eq_none_iff _).2 hcolon]
  have hlike : Options.none.notLike = true → inLoop = true := by
    intro hlike
    cases hlike
  exact readPath_eq_ok_iff.2 ⟨_, hsplit, Path.ofText_trim h, hloop, hlike⟩

/-- A plain path without options is read as it is written. -/
theorem Source.readPath_text (h : p.IsPlain) {inLoop : Bool}
    (hloop : p.usesLoop = true → inLoop = true) (s : Source) (place : Place) :
    s.readPath inLoop place p.text.toList = .ok (p, .none) :=
  readPath_of_ofText (Path.ofText_text h.isWritable) hloop (h.not_mem_text (by decide)) s place

/-- A plain path in a comment is a variable. -/
theorem Source.item_path (h : p.IsPlain) (hword : p.text.toList ∉ Directive.keywords)
    {inLoop : Bool} (hloop : p.usesLoop = true → inLoop = true) (s : Source)
    (start : Text.Position) (testValue : List Char) :
    s.item inLoop ⟨p.text.toList, start⟩ testValue =
      .ok (.node (.bind ⟨p.text, p, .none, String.ofList testValue⟩)) := by
  rw [item_eq_ok_iff, Directive.ofBody_path h hword]
  refine .bind (readVariable_eq_ok_iff.2 ⟨readPath_text h hloop s _, ?_, rfl⟩)
  rw [h.trim_text, String.ofList_toList]

/-- A plain path without options is the source of a loop. -/
theorem Source.item_for_path (h : p.IsPlain) {inLoop : Bool}
    (hloop : p.usesLoop = true → inLoop = true) (s : Source) (start : Text.Position)
    (testValue : List Char) :
    s.item inLoop ⟨"FOR ".toList ++ p.text.toList, start⟩ testValue =
      .ok (.opening (.forBlock p.text p .none)) := by
  have hsays : s.Says inLoop ⟨"FOR ".toList ++ p.text.toList, start⟩ testValue
      (.forMark p.text.toList)
      (.opening (.forBlock (String.ofList (Text.trim p.text.toList)) p .none)) :=
    .forMark (readPath_text h hloop s _) rfl
  rw [h.trim_text, String.ofList_toList] at hsays
  rwa [item_eq_ok_iff, Directive.ofBody_forMark]

namespace Cursor.Lexes

variable {c : Cursor} {body test text r : List Char} {ls : List Lexeme} {fault : Option ErrorKind}

/-- A comment that takes no test value. -/
theorem of_mark (hc : c.rest = commentText body ++ r) (hclosing : ¬ commentClosing <:+: body)
    (hextent : (Directive.ofBody body).extent? = none)
    (hrest : (c.advance (commentText body) r).Lexes ls fault) :
    c.Lexes (.comment body c.position [] :: ls) fault := by
  have hnext := next_of_closing_not_infix hclosing hc
  have htake := takeTestValue_of_extent?_eq_none hextent (c.advance (commentText body) r)
  have hlexes := Lexes.comment hnext (by rw [String.toList_ofList, htake]; exact hrest)
  rwa [String.toList_ofList, htake] at hlexes

/-- A comment with its test value. -/
theorem of_value (hc : c.rest = commentText body ++ (test ++ r))
    (hclosing : ¬ commentClosing <:+: body) (extent : Extent)
    (hextent : (Directive.ofBody body).extent? = some extent)
    (htest : Template.testValue extent (test ++ r) = (test, r))
    (hrest : ((c.advance (commentText body) (test ++ r)).advance test r).Lexes ls fault) :
    c.Lexes (.comment body c.position test :: ls) fault := by
  have hnext := next_of_closing_not_infix hclosing hc
  have htake : (c.advance (commentText body) (test ++ r)).takeTestValue (.ofBody body) =
      (test, (c.advance (commentText body) (test ++ r)).advance test r) := by
    rw [takeTestValue, hextent]
    dsimp only [Cursor.testValue]
    rw [advance, htest]
  have hlexes := Lexes.comment hnext (by rw [String.toList_ofList, htake]; exact hrest)
  rwa [String.toList_ofList, htake] at hlexes

end Cursor.Lexes

/-- The text of a loop that binds the elements of a list one by one. -/
def loopText (path : String) : String :=
  "/*FOR " ++ path ++ "*//*FIRST*/(/*END*//*NEXT ', '*//*#current*/1/*LAST*/)/*END*//*END*/"

/-- The text of a variable that binds the elements of a list all at once. -/
def listText (path : String) : String :=
  "/*" ++ path ++ "*/(1)"

/-- The element of the loop, to be bound. -/
def currentElement : Variable :=
  ⟨loopVariable, ⟨.loop, []⟩, .none, "1"⟩

/-- The body of a loop that binds the elements of a list one by one. -/
def loopBody : List Node :=
  Node.withMarkers [.text "("] [.bind currentElement] [.text ")"] ", "

theorem item_currentElement (s : Source) (start : Text.Position) :
    s.item true ⟨"#current".toList, start⟩ ['1'] = .ok (.node (.bind currentElement)) := by
  have hplain : Path.IsPlain ⟨.loop, []⟩ := ⟨fun _ h => (nomatch h), List.forall_mem_nil _⟩
  have htext : Path.text ⟨.loop, []⟩ = "#current" := by decide
  have hword : (Path.text ⟨.loop, []⟩).toList ∉ Directive.keywords := by
    rw [htext]
    decide
  have hitem : s.item true ⟨(Path.text ⟨.loop, []⟩).toList, start⟩ ['1'] = _ :=
    Source.item_path hplain hword (fun _ => rfl) s start ['1']
  rwa [htext] at hitem

/-- A loop that binds the elements of a list is read. -/
theorem readNodes_loopText (h : p.IsPlain) (hroot : p.usesLoop = false) :
    readNodes (loopText p.text) false = .ok [.forBlock p.text p .none loopBody] := by
  have hfor : ¬ commentClosing <:+: "FOR ".toList ++ p.text.toList := by
    rw [closing_infix_append_of_star_notMem (by decide)]
    exact h.not_isInfix_closing
  have hrest : (Cursor.ofText (loopText p.text)).rest =
      commentText ("FOR ".toList ++ p.text.toList) ++ (commentText "FIRST".toList ++ '(' ::
        (commentText "END".toList ++ (commentText "NEXT ', '".toList ++
          (commentText "#current".toList ++ (['1'] ++ (commentText "LAST".toList ++ ')' ::
            (commentText "END".toList ++ (commentText "END".toList ++ [])))))))) := by
    simp [Cursor.ofText, loopText, commentText, commentOpening, commentClosing]
  have hlexes : (Cursor.ofText (loopText p.text)).Lexes _ none :=
    .of_mark hrest hfor (by rw [Directive.ofBody_forMark]; rfl)
      (.of_mark rfl (by decide) rfl
        (.text rfl
          (.of_mark rfl (by decide) rfl
            (.of_mark rfl (by decide) rfl
              (.of_value rfl (by decide) .full rfl rfl
                (.of_mark rfl (by decide) rfl
                  (.text rfl
                    (.of_mark rfl (by decide) rfl
                      (.of_mark rfl (by decide) rfl (.stop rfl))))))))))
  rw [readNodes_eq_ok_iff, hlexes.readAll_eq]
  have hfor : Source.item ⟨loopText p.text, none⟩ false ⟨_, _⟩ [] = _ :=
    Source.item_for_path h (by simp [hroot]) _ (Cursor.ofText (loopText p.text)).position []
  exact .block hfor
    (.block (o := .first) rfl (.text (.closing rfl)) (.node rfl (.node (item_currentElement _ _)
      (.block (o := .last) rfl (.text (.closing rfl)) (.closing rfl))))) (.stop rfl)

/-- A variable that binds the elements of a list is read. -/
theorem readNodes_listText (h : p.IsPlain) (hroot : p.usesLoop = false)
    (hword : p.text.toList ∉ Directive.keywords) :
    readNodes (listText p.text) false = .ok [.bind ⟨p.text, p, .none, "(1)"⟩] := by
  have hrest : (Cursor.ofText (listText p.text)).rest =
      commentText p.text.toList ++ ("(1)".toList ++ []) := by
    simp [Cursor.ofText, listText, commentText, commentOpening, commentClosing]
  have hlexes : (Cursor.ofText (listText p.text)).Lexes _ none :=
    .of_value hrest h.not_isInfix_closing .full (by rw [Directive.ofBody_path h hword]; rfl) rfl
      (.stop rfl)
  rw [readNodes_eq_ok_iff, hlexes.readAll_eq]
  exact .node (Source.item_path h hword (by simp [hroot]) _ _ _) (.stop rfl)

/-- What is bound for the element of a loop without options. -/
theorem bound_currentElement {env : Environment} {turn : Loop} (hlike : turn.like = none)
    (hnull : turn.current ≠ .null) (hlist : ∀ items, turn.current ≠ .list items) :
    currentElement.bound env [turn] = .ok (.ofValue turn.current turn.current.type) := by
  have hr : currentElement.path.resolve currentElement.expression env [turn] =
      .ok ⟨turn.current, turn.current.type, turn.current, turn.current.type, none⟩ := rfl
  have hnone : currentElement.options.effective (Loop.inheritedLike [turn]) = none := by
    rw [currentElement, Options.effective_none, Loop.inheritedLike_cons, hlike]
    rfl
  have hisNull : turn.current.isNull = false := by
    rwa [Bool.eq_false_iff, Ne, Value.isNull_iff]
  have hscope : currentElement.inScope = false := by decide
  have hscalar : Variable.scalar turn.current = .ok turn.current := by
    unfold Variable.scalar
    split
    next items h => exact absurd h (hlist items)
    next => rfl
  rw [Variable.bound, Variable.resolve, hr]
  dsimp only [bind, Except.bind]
  rw [hnone]
  simp [Resolved.withLike, hisNull, hscope, hscalar, Except.mapError, Variable.withRear,
    Resolved.rear?, pure, Except.pure]

end Template

namespace Run

/-- Steps that add something whatever the flag is, and make the block count. -/
theorem gives_map_of_forall {α : Type} {f : α → Bool → Run} {part : α → BoundSql} {xs : List α}
    (hne : xs ≠ []) (h : ∀ x ∈ xs, ∀ enabled, f x enabled = ⟨part x, true, none⟩)
    (enabled : Bool) : Gives (xs.map f) enabled (xs.map part) true := by
  induction xs generalizing enabled with
  | nil => exact absurd rfl hne
  | cons x xs ih =>
      rw [List.forall_mem_cons] at h
      refine .cons (h.1 enabled) ?_
      cases xs with
      | nil => exact .nil true
      | cons y ys => exact ih (List.cons_ne_nil y ys) h.2 true

end Run

theorem BoundSql.join_ofValue (items : List Value) :
    join (.ofSql "(" :: ((items.map fun w => .ofValue w w.type).intersperse (.ofSql ", ") ++
      [.ofSql ")"])) = .ofValues items := by
  rw [join_enclosed, List.map_map, List.flatMap_map, List.flatMap_map]
  ext1
  · rfl
  · simp [ofSql, ofValue, ofValues]
  · simp [ofSql, ofValue, ofValues, List.map_eq_flatMap]

theorem Loop.map_current_turns (l : Loop) : l.turns.map Loop.current = l.elements := by
  refine List.ext_getElem (by simp) fun index hturn helement => ?_
  simp [turns, current, helement]

namespace Context

open Template (Node loopBody loopText listText readNodes)

variable {c : Context} {p : Path} {r : Resolved} {items : List Value}

/-- One element after another is bound by a loop. -/
theorem evaluate_loopBody (hr : p.follow c.environment [] = .ok r)
    (htarget : r.target = .list items) (hne : items ≠ [])
    (hitems : ∀ w ∈ items, w ≠ .null ∧ ∀ vs, w ≠ .list vs) (expression : String) :
    c.evaluate [] [.forBlock expression p .none loopBody] =
      ((c.add (.ofValues items)).setEnabled true, none) := by
  let embedding := Template.embedding c.environment.remainingDepth c.environment
  let l : Loop := ⟨expression, items, 0, none⟩
  have hresolve : p.resolve expression c.environment [] = .ok r := by
    rw [Path.resolve, hr]
    rfl
  have hturn : ∀ turn ∈ l.turns, ∀ enabled,
      Node.inTurn embedding c.environment [] [.bind Template.currentElement] turn enabled =
        ⟨.ofValue turn.current turn.current.type, true, none⟩ := by
    intro turn hturn enabled
    have hmem : turn.current ∈ items := by
      have hcurrent := List.mem_map_of_mem (f := Loop.current) hturn
      rwa [l.map_current_turns] at hcurrent
    have hlike : turn.like = none := by
      obtain ⟨index, -, rfl⟩ := List.mem_map.1 hturn
      rfl
    obtain ⟨hnull, hlist⟩ := hitems _ hmem
    rw [Node.inTurn, Node.evaluateAll_singleton, Node.evaluate,
      Template.bound_currentElement hlike hnull hlist, Run.ofResult]
  have hturns : l.turns ≠ [] := by
    rw [← List.length_pos_iff, Loop.length_turns]
    exact List.length_pos_iff.2 hne
  have hparts := Run.gives_map_of_forall hturns hturn c.enabled
  have hvalues : l.turns.map (fun turn => BoundSql.ofValue turn.current turn.current.type) =
      items.map fun w => .ofValue w w.type := by
    have hcurrent := congrArg (List.map fun w => BoundSql.ofValue w w.type) l.map_current_turns
    rwa [List.map_map] at hcurrent
  rw [hvalues] at hparts
  have hopening : Node.inTurn embedding c.environment [] [.text "("] (l.turn 0) c.enabled =
      ⟨.ofSql "(", c.enabled, none⟩ := rfl
  have hclosing : Node.inTurn embedding c.environment [] [.text ")"]
      (l.turn (l.elements.length - 1)) true = ⟨.ofSql ")", true, none⟩ := rfl
  have hall := (Node.all_withMarkers_iff (l := l) hne ", ").2
    ⟨_, _, _, _, _, hopening, hparts, hclosing, rfl⟩
  rw [BoundSql.join_ofValue] at hall
  rw [evaluate_singleton, goOn_eq_none_iff]
  exact ⟨_, true, (Node.evaluate_forBlock_iff ..).2 ⟨r, items, hresolve, htarget, hall⟩, rfl⟩

/-- The elements of a list are bound all at once. -/
theorem evaluate_list (hr : p.follow c.environment [] = .ok r) (htarget : r.target = .list items)
    (hne : items ≠ []) (hitems : ∀ w ∈ items, w ≠ .null) (expression : String) :
    c.evaluate [] [.bind ⟨expression, p, .none, "(1)"⟩] =
      ((c.add (.ofValues items)).setEnabled true, none) := by
  have hresolve : p.resolve expression c.environment [] = .ok r := by
    rw [Path.resolve, hr]
    rfl
  have hpresent : items.filter (!·.isNull) = items := by
    rw [List.filter_eq_self]
    intro w hw
    rw [Bool.not_eq_true', Bool.eq_false_iff, Ne, Value.isNull_iff]
    exact hitems w hw
  have hexpansion : Template.Variable.expansion c.environment.config.blockNull (.list items) =
      .ok items := by
    obtain ⟨w, hw⟩ := List.exists_mem_of_ne_nil items hne
    have helements := Template.Variable.elements_eq_ok hw (hitems w hw)
    rwa [hpresent] at helements
  have hscope : Template.Variable.inScope ⟨expression, p, .none, "(1)"⟩ = true := by
    rw [Template.Variable.inScope]
    dsimp only
    decide
  have hbind := bind_of_inScope hscope hresolve
  rwa [htarget, hexpansion] at hbind

/-- A loop with markers and a variable with a parenthesized test value bind the elements of a list
in the same way. -/
theorem evaluate_loopText_listText {name : String} (hp : p.IsPlain)
    (hroot : p.root = .argument name) (hword : p.text ∉ ["ELSE", "END", "BEGIN", "FIRST", "LAST"])
    (hr : p.follow c.environment [] = .ok r) (htarget : r.target = .list items) (hne : items ≠ [])
    (hitems : ∀ w ∈ items, w ≠ .null ∧ ∀ vs, w ≠ .list vs) :
    ∃ loop list, readNodes (loopText p.text) false = .ok loop ∧
      readNodes (listText p.text) false = .ok list ∧
      c.evaluate [] loop = c.evaluate [] list ∧
      c.evaluate [] list =
        ((c.add ⟨"(" ++ ", ".intercalate (items.map fun _ => "?") ++ ")", items,
          items.map Value.type⟩).setEnabled true, none) := by
  have hloop : p.usesLoop = false := by
    rw [Path.usesLoop, hroot]
    rfl
  have hkeyword : p.text.toList ∉ Template.Directive.keywords := by
    have hkeywords : Template.Directive.keywords =
        ["ELSE", "END", "BEGIN", "FIRST", "LAST"].map String.toList := rfl
    rw [hkeywords, List.mem_map_of_injective fun _ _ => String.toList_inj.1]
    exact hword
  have hlist := evaluate_list hr htarget hne (fun w hw => (hitems w hw).1) p.text
  refine ⟨_, _, Template.readNodes_loopText hp hloop, Template.readNodes_listText hp hloop hkeyword,
    ?_, hlist⟩
  rw [hlist]
  exact evaluate_loopBody hr htarget hne hitems p.text

/-- The path leads through a map to an element of a list of lists. -/
theorem evaluate_loopText_listText_of_path :
    let p : Path := ⟨.argument "pmb", [.property "ids", .index "0"]⟩
    let items : List Value := [.int32 1, .string "a"]
    let ids : Value := .list [.list items]
    let pmb : Value := .map [("ids", ids)]
    let c : Context := .root ⟨[("pmb", pmb)], []⟩ {} ""
    let r : Resolved := ⟨pmb, pmb.type, .list items, .list, none⟩
    p.IsPlain ∧ p.follow c.environment [] = .ok r ∧
      p.text = "pmb.ids.get(0)" ∧
      ∃ loop list, readNodes (loopText p.text) false = .ok loop ∧
        readNodes (listText p.text) false = .ok list ∧
        c.evaluate [] loop = c.evaluate [] list ∧
        c.evaluate [] list =
          ((c.add ⟨"(?, ?)", items, [.integer, .string]⟩).setEnabled true, none) := by
  intro p items ids pmb c r
  have hp : p.IsPlain := by
    refine ⟨?_, by decide⟩
    rintro _ ⟨⟩
    decide
  have hr : p.follow c.environment [] = .ok r := rfl
  have htext : p.text = "pmb.ids.get(0)" := by decide
  have hword : p.text ∉ ["ELSE", "END", "BEGIN", "FIRST", "LAST"] := by
    rw [htext]
    decide
  have hitems : ∀ w ∈ items, w ≠ .null ∧ ∀ vs, w ≠ .list vs := by simp [items]
  exact ⟨hp, hr, htext,
    evaluate_loopText_listText hp rfl hword hr rfl (List.cons_ne_nil _ _) hitems⟩

end Context

end SqlTemplate
