import Mathlib
import SqlTemplate.Proofs.ListLoops
import SqlTemplate.Proofs.ReplacedTests
import SqlTemplate.Proofs.TextEnds

/-!
# Texts in blocks

A text that is read on its own is read in the same way between the marks of a block
(`readNodes_block`). It is cut into the same lexemes there if it is closed, so that the mark behind
it is found; a comment says the same wherever it stands; and the nodes of the text are those of the
block. Where the block is a loop the text has to be read as one in a loop. As such a text it is read
too where it is embedded in a loop, so it means the same there as in the body of the loop
(`readNodes_enclosed`).

A path in the mark of a loop must not hold a colon, behind which options are looked for, nor the
closing mark of a comment. The index of a list element may be written with either of them
(`not_readNodes_enclosed`).
-/

namespace SqlTemplate.Template

namespace Source

variable {s : Source} {inLoop : Bool}

/-- A comment says the same wherever it stands. -/
theorem item_of_eq_ok {body test : List Char} {start : Text.Position} {i : Item}
    (h : s.item inLoop ⟨body, start⟩ test = .ok i) (s' : Source) (start' : Text.Position) :
    s'.item inLoop ⟨body, start'⟩ test = .ok i := by
  simp only [item_eq_ok_iff] at h ⊢
  generalize Directive.ofBody body = d at h ⊢
  cases h with
  | plain => exact .plain
  | bind hv => exact .bind (readVariable_of_eq_ok hv s' _)
  | embedded hv => exact .embedded (readVariable_of_eq_ok hv s' _)
  | ifMark hcondition => exact .ifMark (readCondition_of_eq_ok hcondition s')
  | forMark hpath hlike => exact .forMark (readPath_of_eq_ok hpath s' _) hlike
  | beginMark => exact .beginMark
  | firstMark hloop => exact .firstMark hloop
  | lastMark hloop => exact .lastMark hloop
  | nextMark hloop hquoted => exact .nextMark hloop hquoted
  | elseMark => exact .elseMark
  | endMark => exact .endMark

theorem saysAs_of_moved {l l' : Lexeme} (h : l.Moved l') (s s' : Source) : SaysAs s s' l l' := by
  cases h with
  | text t => exact .text t
  | comment => exact .comment fun inLoop i hitem => item_of_eq_ok hitem s' _

end Source

/-- The text between two marks is read as the nodes of a block, if it is read as nodes by itself
and is closed. -/
theorem readNodes_block (body : List Char) (o : Opening) {s text : String} {inLoop : Bool}
    {ns : List Node} (hbody : ¬ commentClosing <:+: body)
    (hextent : (Directive.ofBody body).extent? = none)
    (hitem : ∀ source start, Source.item source inLoop ⟨body, start⟩ [] = .ok (.opening o))
    (htext : text.toList = commentText body ++ (s.toList ++ commentText "END".toList))
    (hclosed : EndsClosed s) (h : readNodes s (inLoop || o.isLoop) = .ok ns) :
    readNodes text inLoop = .ok [o.node ns none] := by
  rw [readNodes_eq_ok_iff] at h ⊢
  have hfault := fault_eq_none_of_reads h rfl
  -- Behind the first mark the text is cut up to the second one, which is left as it is.
  have hinside : ((Cursor.ofText text).advance (commentText body)
      (s.toList ++ commentText "END".toList)).rest =
        (Cursor.ofText s).rest ++ (commentOpening ++ "END*/".toList) := rfl
  obtain ⟨ls', d, hmoved, hd, hcut⟩ :=
    (Cursor.lexes_readAll (.ofText s)).exists_append hfault hclosed hinside
  have hend : d.Lexes [.comment "END".toList d.position []] none :=
    .of_mark (r := []) (by rw [hd]; rfl) (by decide) rfl (.stop rfl)
  have hlexes : (Cursor.ofText text).Lexes _ none :=
    .of_mark htext hbody hextent (hcut _ _ hend)
  rw [hlexes.readAll_eq]
  have hmark : Source.Reads ⟨text, none⟩ (inLoop || o.isLoop)
      [.comment "END".toList d.position []] [] .endMark [] := .closing rfl
  have hinner := h.append rfl (hmoved.imp fun l l' hl => Source.saysAs_of_moved hl _ _) hmark
  rw [List.append_nil] at hinner
  exact .block (hitem _ _) hinner (.stop rfl)

/-- A closed text in a block is read as in the place of the block, and in a loop as a text in a
loop, which is also how it is read where it is embedded in one. -/
theorem readNodes_enclosed {s : String} (hclosed : EndsClosed s) :
    (∀ inLoop ns, readNodes s inLoop = .ok ns →
      readNodes ("/*BEGIN*/" ++ s ++ "/*END*/") inLoop = .ok [.block ns]) ∧
    ∀ ns, readNodes s true = .ok ns →
      (∀ (e : String) (p : Path), Path.ofText e.toList = .ok p → p.usesLoop = false →
        ':' ∉ e.toList → ¬ commentClosing <:+: e.toList → ∀ inLoop,
          readNodes ("/*FOR " ++ e ++ "*/" ++ s ++ "/*END*/") inLoop =
            .ok [.forBlock (String.ofList (Text.trim e.toList)) p .none ns]) ∧
      ∀ evaluateNodes env loops v r, loops ≠ [] →
        embedText evaluateNodes env loops v r s =
          (evaluateNodes (env.nested (embeddedArguments v r) s) loops true ns).toResult := by
  refine ⟨fun inLoop ns h => ?_, fun ns h => ⟨fun e p hp hroot hcolon hclosing inLoop => ?_, ?_⟩⟩
  · refine readNodes_block "BEGIN".toList .block (by decide) (by decide)
      (fun source start => rfl) ?_ hclosed ?_
    · simp [commentText, commentOpening, commentClosing]
    · simpa [Opening.isLoop] using h
  · refine readNodes_block ("FOR ".toList ++ e.toList)
      (.forBlock (String.ofList (Text.trim e.toList)) p .none) ?_ ?_ (fun source start => ?_) ?_
      hclosed ?_
    · rwa [closing_infix_append_of_star_notMem (by decide)]
    · rw [Directive.ofBody_forMark]
      rfl
    · rw [Source.item_eq_ok_iff, Directive.ofBody_forMark]
      have hloop : p.usesLoop = true → inLoop = true := by simp [hroot]
      exact .forMark (Source.readPath_of_ofText hp hloop hcolon source _) rfl
    · simp [commentText, commentOpening, commentClosing]
    · simpa [Opening.isLoop] using h
  · intro evaluateNodes env loops v r hloops
    have hflag : (!loops.isEmpty) = true := by simpa using hloops
    rw [embedText, hflag, h]
    rfl

/-- A literal at the end of the text does not take the mark behind it. -/
theorem readNodes_enclosed_literal :
    let s := "x = /*#current*/'y'"
    let ns : List Node := [.text "x = ", .bind ⟨"#current", ⟨.loop, []⟩, .none, "'y'"⟩]
    EndsClosed s ∧ readNodes s true = .ok ns ∧
      readNodes ("/*BEGIN*/" ++ s ++ "/*END*/") true = .ok [.block ns] ∧
      readNodes ("/*FOR " ++ "a.b" ++ "*/" ++ s ++ "/*END*/") false =
        .ok [.forBlock "a.b" ⟨.argument "a", [.property "b"]⟩ .none ns] := by
  intro s ns
  have hlexes : (Cursor.ofText "x = /*#current*/'y'").Lexes _ none :=
    .text rfl (.comment rfl (.stop rfl))
  have hclosed : EndsClosed s := by
    refine (endsClosed_iff hlexes).2 fun l hl => ?_
    cases hl
    rfl
  have hread : readNodes "x = /*#current*/'y'" true = .ok ns := by
    rw [readNodes_eq_ok_iff, hlexes.readAll_eq]
    exact .text (.node rfl (.stop rfl))
  have hpath : Path.ofText "a.b".toList = .ok ⟨.argument "a", [.property "b"]⟩ := rfl
  have htrim : String.ofList (Text.trim "a.b".toList) = "a.b" := by cbv
  obtain ⟨hblock, hloop⟩ := readNodes_enclosed hclosed
  have hfor := (hloop ns hread).1 "a.b" _ hpath rfl (by decide) (by decide) false
  rw [htrim] at hfor
  exact ⟨hclosed, hread, hblock true ns hread, hfor⟩

/-- A text is not read where a path in front of it is not. -/
theorem readNodes_for_ne {e r : List Char} {text : String} {inLoop : Bool}
    (he : ¬ commentClosing <:+: e) (htext : text.toList = commentText ("FOR ".toList ++ e) ++ r)
    (hpath : ∀ source place o, Source.readPath source inLoop place e ≠ .ok o) (ns : List Node) :
    readNodes text inLoop ≠ .ok ns := by
  have hbody : ¬ commentClosing <:+: "FOR ".toList ++ e := by
    rwa [closing_infix_append_of_star_notMem (by decide)]
  have hextent : (Directive.ofBody ("FOR ".toList ++ e)).extent? = none := by
    rw [Directive.ofBody_forMark]
    rfl
  have hlexes : (Cursor.ofText text).Lexes _ _ :=
    .of_mark htext hbody hextent (Cursor.lexes_readAll _)
  have hitem (source : Source) (start : Text.Position) (i : Item) :
      source.item inLoop ⟨"FOR ".toList ++ e, start⟩ [] ≠ .ok i := by
    rw [Ne, Source.item_eq_ok_iff, Directive.ofBody_forMark]
    rintro ⟨⟩
    exact hpath _ _ _ ‹_›
  rw [Ne, readNodes_eq_ok_iff, hlexes.readAll_eq]
  generalize (Lexeme.readAll _).1 = ls
  intro h
  cases h with
  | node h | block h | parts h => exact hitem _ _ _ h
  | closing h => exact hitem _ _ _ h

/-- A path with a colon in it is cut off, and so is one with the closing mark of a comment. -/
theorem not_readNodes_enclosed :
    let p : Path := ⟨.argument "a", [.index "x:y"]⟩
    let q : Path := ⟨.argument "a", [.index "x*/y"]⟩
    EndsClosed "t" ∧ readNodes "t" true = .ok [.text "t"] ∧
      p.IsWritable ∧ q.IsWritable ∧ p.usesLoop = false ∧ q.usesLoop = false ∧
      readNodes ("/*FOR " ++ p.text ++ "*/" ++ "t" ++ "/*END*/") false ≠
        .ok [.forBlock p.text p .none [.text "t"]] ∧
      readNodes ("/*FOR " ++ q.text ++ "*/" ++ "t" ++ "/*END*/") false ≠
        .ok [.forBlock q.text q .none [.text "t"]] := by
  intro p q
  have hlexes : (Cursor.ofText "t").Lexes _ none := .text rfl (.stop rfl)
  have hclosed : EndsClosed "t" := by
    refine (endsClosed_iff hlexes).2 fun l hl => ?_
    cases hl
    rfl
  have hread : readNodes "t" true = .ok [.text "t"] := by
    rw [readNodes_eq_ok_iff, hlexes.readAll_eq]
    exact .text (.stop rfl)
  have hname : Text.isIdentifier "a".toList = true := by cbv
  have hp : p.IsWritable :=
    ⟨fun name h => by cases h; exact hname, List.forall_mem_singleton.2
      ⟨by decide, by simp, by cbv⟩⟩
  have hq : q.IsWritable :=
    ⟨fun name h => by cases h; exact hname, List.forall_mem_singleton.2
      ⟨by decide, by simp, by cbv⟩⟩
  refine ⟨hclosed, hread, hp, hq, rfl, rfl, ?_, ?_⟩
  · have htext : p.text = "a.get(x:y)" := by decide
    refine readNodes_for_ne (e := "a.get(x:y)".toList) (by decide) (r := "t/*END*/".toList) ?_
      (fun source place o h => ?_) _
    · rw [htext]
      decide
    · obtain ⟨_, hsplit, -⟩ := Except.bind_eq_ok_iff.1 h
      cases Except.mapError_eq_ok_iff.1 hsplit
  · have htext : q.text = "a.get(x*/y)" := by decide
    refine readNodes_for_ne (e := "a.get(x".toList) (by decide) (r := "y)*/t/*END*/".toList) ?_
      (fun source place o h => ?_) _
    · rw [htext]
      decide
    · obtain ⟨_, hsplit, h⟩ := Except.bind_eq_ok_iff.1 h
      cases Except.mapError_eq_ok_iff.1 hsplit
      obtain ⟨_, hpath, -⟩ := Except.bind_eq_ok_iff.1 h
      cases Except.mapError_eq_ok_iff.1 hpath

end SqlTemplate.Template
