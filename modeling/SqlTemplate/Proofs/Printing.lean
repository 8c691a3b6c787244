import Mathlib
import SqlTemplate.Proofs.Grammar
import SqlTemplate.Proofs.Lexemes
import SqlTemplate.Proofs.Relexing

/-!
# Printing templates

Nodes are printed as a template (`Node.printAll`): each comment with nothing around its
expression, and all else as it was written. What is printed for the nodes of a text is read as
the same nodes (`readNodes_print`).

The printed text is cut into the lexemes of the text again, because each of them is printed
by itself and begins as it began (`Cursor.Lexes.exists_print`). A comment in its canonical form
says what it said, so the rules that allowed the nodes allow them again
(`Source.Reads.of_printsAs`).
-/

namespace SqlTemplate.Template

namespace Node

mutual

/-- The node as the text of a template. -/
def print : Node → List Char
  | .text s => s.toList
  | .connector word rest => word.toList ++ rest.toList
  | .bind v => commentText v.expression.toList ++ v.testValue.toList
  | .embedded v mode =>
    commentText (mode.sigil.toList ++ v.expression.toList) ++ v.testValue.toList
  | .ifBlock condition body otherwise =>
    commentText ("IF ".toList ++ condition.expression.toList) ++ printAll body
      ++ printOption otherwise ++ commentText "END".toList
  | .forBlock expression _ _ body =>
    commentText ("FOR ".toList ++ expression.toList) ++ printAll body
      ++ commentText "END".toList
  | .block body => commentText "BEGIN".toList ++ printAll body ++ commentText "END".toList
  | .first body => commentText "FIRST".toList ++ printAll body ++ commentText "END".toList
  | .last body => commentText "LAST".toList ++ printAll body ++ commentText "END".toList
  | .separator s => commentText ("NEXT ".toList ++ Text.quote s.toList)

/-- The nodes as the text of a template. -/
def printAll : List Node → List Char
  | [] => []
  | n :: ns => print n ++ printAll ns

/-- The second part of a condition, if there is one. -/
def printOption : Option (List Node) → List Char
  | none => []
  | some ns => commentText "ELSE".toList ++ printAll ns

end

end Node

theorem append_of_cutConnector?_eq_some {s connector rest : List Char}
    (h : cutConnector? s = some (connector, rest)) : connector ++ rest = s := by
  rw [cutConnector?, Option.or_eq_some_iff] at h
  rcases h with h | ⟨-, h⟩
  all_goals
    dsimp only at h
    split at h
    next =>
      cases h
      simp [List.span_eq_takeWhile_dropWhile, List.splitAt_eq]
    next => cases h

/-- A connector that is set apart is printed where it stood. -/
theorem printAll_adjustConnector (ns : List Node) :
    Node.printAll (adjustConnector ns) = Node.printAll ns := by
  rw [adjustConnector.eq_def]
  split
  next s ns =>
    split
    next connector rest hcut =>
      have happend := append_of_cutConnector?_eq_some hcut
      rw [Node.printAll, Node.printAll, Node.print, Node.print, String.toList_ofList,
        String.toList_ofList, happend]
    next => rfl
  next => rfl

/-- The comment that opens the block. -/
def Opening.print : Opening → List Char
  | .ifBlock condition => commentText ("IF ".toList ++ condition.expression.toList)
  | .forBlock expression _ _ => commentText ("FOR ".toList ++ expression.toList)
  | .block => commentText "BEGIN".toList
  | .first => commentText "FIRST".toList
  | .last => commentText "LAST".toList

/-- The comment that ends a sequence of nodes. -/
def Closing.print : Closing → List Char
  | .stop => []
  | .endMark => commentText "END".toList
  | .elseMark => commentText "ELSE".toList

/-- The text of a template for what a comment says. -/
def Item.print : Item → List Char
  | .node n => n.print
  | .opening o => o.print
  | .closing c => c.print

theorem Opening.print_node {o : Opening} {otherwise : Option (List Node)}
    (h : o.allowsElse = true ∨ otherwise = none) (body : List Node) :
    (o.node body otherwise).print =
      o.print ++ Node.printAll body ++ Node.printOption otherwise ++ Closing.endMark.print := by
  cases o with
  | ifBlock condition =>
      have hoption : Node.printOption (otherwise.map adjustConnector) =
          Node.printOption otherwise := by
        cases otherwise with
        | none => rfl
        | some ns => rw [Option.map_some, Node.printOption, printAll_adjustConnector]; rfl
      rw [node, Node.print, printAll_adjustConnector, hoption]
      rfl
  | forBlock | block | first | last =>
      rcases h with h | rfl
      · cases h
      · rw [Node.printOption, List.append_nil]
        rfl

namespace Lexeme

/-- The lexeme with its comment in canonical form. -/
def print : Lexeme → List Char
  | .text s => s.toList
  | .comment body _ testValue => commentText (canonicalBody body) ++ testValue

/-- Whether the canonical form asks for the canonical directive. -/
def IsPrintable : Lexeme → Prop
  | .text _ => True
  | .comment body _ _ =>
    Directive.ofBody (canonicalBody body) = (Directive.ofBody body).canonical

/-- The second lexeme is the first one in canonical form, wherever it stands. -/
inductive PrintsAs : Lexeme → Lexeme → Prop where
  | text (s : String) : PrintsAs (.text s) (.text s)
  | comment (body : List Char) (start start' : Text.Position) (testValue : List Char) :
      PrintsAs (.comment body start testValue) (.comment (canonicalBody body) start' testValue)

end Lexeme

theorem Directive.extent?_canonical (d : Directive) : d.canonical.extent? = d.extent? := by
  cases d with
  | _ => rfl

namespace Source

variable {s : Source} {inLoop : Bool}

/-- The comment in canonical form is what is printed for what it says. -/
theorem print_of_item_eq_ok {p : Place} {testValue : List Char} {i : Item}
    (h : s.item inLoop p testValue = .ok i)
    (hfits : (Directive.ofBody p.body).extent? = none → testValue = []) :
    commentText (canonicalBody p.body) ++ testValue = i.print := by
  rw [item_eq_ok_iff] at h
  rw [canonicalBody]
  generalize Directive.ofBody p.body = d at h hfits ⊢
  cases h with
  | bind hv | embedded hv =>
      obtain ⟨⟨path, options⟩, -, hv⟩ := Except.bind_eq_ok_iff.1 hv
      cases hv
      rw [Item.print, Node.print, String.toList_ofList, String.toList_ofList]
      rfl
  | ifMark hcondition =>
      obtain ⟨c, hc, h⟩ := Except.bind_eq_ok_iff.1 hcondition
      have hexpression := Condition.expression_of_ofText_eq_ok (Except.mapError_eq_ok_iff.1 hc)
      split at h
      next => cases h
      next =>
        cases h
        simp only [hfits rfl, Item.print, Opening.print, hexpression, String.toList_ofList,
          List.append_nil]
        rfl
  | forMark =>
      simp only [hfits rfl, Item.print, Opening.print, String.toList_ofList, List.append_nil]
      rfl
  | nextMark _ hquoted =>
      simp only [hfits rfl, Item.print, Node.print, Directive.canonical, hquoted,
        String.toList_ofList, List.append_nil]
      rfl
  | plain =>
      rw [hfits rfl, List.append_nil, Item.print, Node.print, String.toList_ofList]
      rfl
  | firstMark | lastMark | beginMark | endMark | elseMark =>
      rw [hfits rfl, List.append_nil]
      rfl

variable {ls : List Lexeme} {ns : List Node} {c : Closing} {rest : List Lexeme}

/-- What is printed for lexemes is what is printed for the nodes that they are read as. -/
theorem Reads.flatMap_print (h : s.Reads inLoop ls ns c rest) (hfits : ∀ l ∈ ls, l.Fits) :
    ls.flatMap Lexeme.print =
      Node.printAll ns ++ c.print ++ rest.flatMap Lexeme.print := by
  induction h with
  | stop _ => rfl
  | text _ ih =>
      rw [List.forall_mem_cons] at hfits
      rw [List.flatMap_cons, ih hfits.2, Node.printAll, List.append_assoc, List.append_assoc,
        List.append_assoc]
      rfl
  | node hitem _ ih =>
      rw [List.forall_mem_cons] at hfits
      have hprint := print_of_item_eq_ok hitem hfits.1
      rw [List.flatMap_cons, ih hfits.2, Lexeme.print, hprint, Node.printAll,
        List.append_assoc, List.append_assoc, List.append_assoc]
      rfl
  | closing hitem =>
      rw [List.forall_mem_cons] at hfits
      have hprint := print_of_item_eq_ok hitem hfits.1
      rw [List.flatMap_cons, Lexeme.print, hprint]
      rfl
  | block hitem hpart _ ihpart ihrest =>
      rw [List.forall_mem_cons] at hfits
      have hmid := fun l hl => hfits.2 l (hpart.isSuffix.subset hl)
      have hprint := print_of_item_eq_ok hitem hfits.1
      rw [List.flatMap_cons, ihpart hfits.2, ihrest hmid, Lexeme.print, hprint, Node.printAll,
        Opening.print_node (.inr rfl), Node.printOption, List.append_nil]
      simp only [Item.print, List.append_assoc]
  | parts hitem hallows hpart hsecond _ ihpart ihsecond ihrest =>
      rw [List.forall_mem_cons] at hfits
      have hmid := fun l hl => hfits.2 l (hpart.isSuffix.subset hl)
      have hmid' := fun l hl => hmid l (hsecond.isSuffix.subset hl)
      have hprint := print_of_item_eq_ok hitem hfits.1
      rw [List.flatMap_cons, ihpart hfits.2, ihsecond hmid, ihrest hmid', Lexeme.print, hprint,
        Node.printAll, Opening.print_node (.inl hallows), Node.printOption]
      simp only [Item.print, Closing.print, List.append_assoc]

theorem isPrintable_of_item_eq_ok {body : List Char} {start : Text.Position}
    {testValue : List Char} {i : Item} (h : s.item inLoop ⟨body, start⟩ testValue = .ok i) :
    (Lexeme.comment body start testValue).IsPrintable := by
  have hbody := ofBody_canonicalBody h
  exact hbody

/-- The comments that are read are printable. -/
theorem Reads.isPrintable (h : s.Reads inLoop ls ns c rest) :
    ∀ l ∈ ls, l.IsPrintable ∨ l ∈ rest := by
  induction h with
  | stop _ => exact fun l hl => nomatch hl
  | text _ ih =>
      rw [List.forall_mem_cons]
      exact ⟨.inl trivial, ih⟩
  | node hitem _ ih =>
      rw [List.forall_mem_cons]
      exact ⟨.inl (isPrintable_of_item_eq_ok hitem), ih⟩
  | closing hitem =>
      rw [List.forall_mem_cons]
      exact ⟨.inl (isPrintable_of_item_eq_ok hitem), fun l hl => .inr hl⟩
  | block hitem _ _ ihpart ihrest =>
      rw [List.forall_mem_cons]
      refine ⟨.inl (isPrintable_of_item_eq_ok hitem), fun l hl => ?_⟩
      rcases ihpart l hl with hl | hl
      · exact .inl hl
      · exact ihrest l hl
  | parts hitem _ _ _ _ ihpart ihsecond ihrest =>
      rw [List.forall_mem_cons]
      refine ⟨.inl (isPrintable_of_item_eq_ok hitem), fun l hl => ?_⟩
      rcases ihpart l hl with hl | hl
      · exact .inl hl
      · rcases ihsecond l hl with hl | hl
        · exact .inl hl
        · exact ihrest l hl

/-- A lexeme in canonical form says the same, wherever it stands. -/
theorem saysAs_of_printsAs {l l' : Lexeme} (h : l.PrintsAs l') (s s' : Source) :
    SaysAs s s' l l' := by
  cases h with
  | text t => exact .text t
  | comment => exact .comment fun inLoop i hitem => item_canonicalBody hitem s' _

/-- The same nodes are read from lexemes in canonical form. -/
theorem Reads.of_printsAs (h : s.Reads inLoop ls ns .stop []) {s' : Source}
    (hfault : s'.fault = none) {ls' : List Lexeme} (hls : List.Forall₂ Lexeme.PrintsAs ls ls') :
    s'.Reads inLoop ls' ns .stop [] := by
  have hsays := hls.imp fun l l' hl => saysAs_of_printsAs hl s s'
  have hreads := h.append rfl hsays (.stop hfault)
  rwa [List.append_nil, List.append_nil] at hreads

end Source

namespace Cursor

variable {c : Cursor} {ls : List Lexeme} {fault : Option ErrorKind}

/-- A text begins as what is printed for its lexemes. -/
theorem Lexes.beginsAlike_print (h : c.Lexes ls fault) (hfault : fault = none) :
    BeginsAlike c.rest (ls.flatMap Lexeme.print) := by
  induction h with
  | fault _ => cases hfault
  | stop hnext =>
      rw [rest_eq_nil_of_next_eq_stop hnext]
      rfl
  | @text _ s _ _ _ hnext _ ih =>
      rw [← source_append_of_next_eq_ok hnext, List.flatMap_cons]
      exact (ih hfault).append s.toList
  | comment hnext _ _ =>
      rw [← source_append_of_next_eq_ok hnext, List.flatMap_cons]
      rfl

/-- What is printed for the lexemes of a text is cut into the same lexemes in canonical
form. -/
theorem Lexes.exists_print (h : c.Lexes ls fault) (hfault : fault = none)
    (hprintable : ∀ l ∈ ls, l.IsPrintable) {c' : Cursor}
    (hc' : c'.rest = ls.flatMap Lexeme.print) :
    ∃ ls', c'.Lexes ls' none ∧ List.Forall₂ Lexeme.PrintsAs ls ls' := by
  induction h generalizing c' with
  | fault _ => cases hfault
  | stop _ =>
      have hnext : c'.next = .ok (.stop, c') := by
        rw [next, hc']
        rfl
      exact ⟨[], .stop hnext, .nil⟩
  | @text _ s _ _ _ hnext hrest ih =>
      rw [List.forall_mem_cons] at hprintable
      have hnext' := next_of_next_eq_text hnext (hrest.beginsAlike_print hfault) hc'
      have hrest' (r : List Char) : (c'.advance s.toList r).rest = r := rfl
      obtain ⟨ls', hlexes, hls⟩ := ih hfault hprintable.2 (hrest' _)
      exact ⟨_, .text hnext' hlexes, .cons (.text s) hls⟩
  | @comment c body c₁ ls _ hnext hrest ih =>
      -- The test value is cut off alike, as the directive stays and the rest begins alike.
      rw [List.forall_mem_cons] at hprintable
      obtain ⟨hbody, hprintable⟩ := hprintable
      have hclosing := closing_not_infix_canonicalBody (closing_not_infix_of_next_eq_comment hnext)
      rw [List.flatMap_cons, Lexeme.print, List.append_assoc] at hc'
      have hnext' := next_of_closing_not_infix hclosing hc'
      have hextent : (Directive.ofBody (canonicalBody body.toList)).extent? =
          (Directive.ofBody body.toList).extent? := by
        rw [Lexeme.IsPrintable] at hbody
        rw [hbody, Directive.extent?_canonical]
      have hbehind := hrest.beginsAlike_print hfault
      have hadvance (r : List Char) :
          (c'.advance (commentText (canonicalBody body.toList)) r).rest = r := rfl
      obtain ⟨htest, hrest'⟩ := takeTestValue_of_beginsAlike hbehind hextent (hadvance _)
      obtain ⟨ls', hlexes, hls⟩ := ih hfault hprintable hrest'
      have hlexes' := Lexes.comment hnext' (by rw [String.toList_ofList]; exact hlexes)
      rw [String.toList_ofList, htest] at hlexes'
      exact ⟨_, hlexes', .cons (.comment _ _ _ _) hls⟩

end Cursor

/-- What is printed for the nodes of a text is read as the same nodes. -/
theorem readNodes_print {text : String} {inLoop : Bool} {ns : List Node}
    (h : readNodes text inLoop = .ok ns) :
    readNodes (String.ofList (Node.printAll ns)) inLoop = .ok ns := by
  rw [readNodes_eq_ok_iff] at h ⊢
  have hlexes := Cursor.lexes_readAll (.ofText text)
  have hfault := fault_eq_none_of_reads h rfl
  have hprintable : ∀ l ∈ (Lexeme.readAll (.ofText text)).1, l.IsPrintable := by
    intro l hl
    rcases h.isPrintable l hl with hl | hl
    · exact hl
    · cases hl
  have hprint : (Cursor.ofText (String.ofList (Node.printAll ns))).rest =
      (Lexeme.readAll (.ofText text)).1.flatMap Lexeme.print := by
    rw [h.flatMap_print hlexes.fits, Cursor.ofText, String.toList_ofList, List.flatMap_nil,
      Closing.print, List.append_nil, List.append_nil]
  obtain ⟨ls', hlexes', hls⟩ := hlexes.exists_print hfault hprintable hprint
  rw [hlexes'.readAll_eq]
  have hnone : (Source.mk (String.ofList (Node.printAll ns)) none).fault = none := rfl
  exact h.of_printsAs hnone hls

/-- A template that is not written as it is printed. -/
def spacedText : String :=
  "/* BEGIN */x /*FOR l :likePrefix *//*NEXT  ', ''' */ /*$#current */'y' -- '/*\n/*END *//*END*/"

/-- The nodes of the template. -/
def spacedNodes : List Node :=
  [.block
    [.text "x ",
      .forBlock "l :likePrefix" ⟨.argument "l", []⟩ ⟨some .startsWith, false⟩
        [.separator ", '", .text " ",
          .embedded ⟨"#current", ⟨.loop, []⟩, .none, "'y'"⟩ .normal, .text " -- '/*\n"]]]

set_option maxRecDepth 2000 in
theorem readNodes_print_spacedNodes :
    readNodes spacedText false = .ok spacedNodes ∧
      Node.printAll spacedNodes =
        ("/*BEGIN*/x /*FOR l :likePrefix*//*NEXT ', '''*/ /*$#current*/'y' -- '/*\n" ++
          "/*END*//*END*/").toList ∧
      readNodes (String.ofList (Node.printAll spacedNodes)) false = .ok spacedNodes := by
  have hlexes : (Cursor.ofText spacedText).Lexes _ none :=
    .comment rfl (.text rfl (.comment rfl (.comment rfl (.text rfl (.comment rfl (.text rfl
      (.comment rfl (.comment rfl (.stop rfl)))))))))
  have hstop : (Source.mk spacedText none).Reads false [] [] .stop [] := .stop rfl
  have hspaced : readNodes spacedText false = .ok spacedNodes := by
    rw [readNodes_eq_ok_iff, hlexes.readAll_eq]
    exact .block (o := .block) rfl
      (.text (.block (o := .forBlock "l :likePrefix" ⟨.argument "l", []⟩ ⟨some .startsWith, false⟩)
        rfl (.node rfl (.text (.node rfl (.text (.closing rfl))))) (.closing rfl))) hstop
  exact ⟨hspaced, by decide, readNodes_print hspaced⟩

end SqlTemplate.Template
