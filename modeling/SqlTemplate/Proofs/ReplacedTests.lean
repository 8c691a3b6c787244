import Mathlib
import SqlTemplate.Proofs.Agreement
import SqlTemplate.Proofs.Grammar
import SqlTemplate.Proofs.Relexing
import SqlTemplate.Proofs.TestValues

/-!
# Replacing a test value

A test value is not part of what a template gives. Where it is replaced by another one that
expects a list as it did, and quotes as it did, the template gives the same
(`render_of_takesTest`).

The two templates are cut into the same lexemes, but for the test value and for where the lexemes
behind it start (`Cursor.LexesAlike`): in front of the comment because a piece is seen to end by
the mark of the comment at most, and behind the test value because the rest is the same. From such
lexemes the same nodes are read but for their test values (`Source.Reads.exists_reads_alike`),
and these decide the same in the evaluation.
-/

namespace SqlTemplate.Template

open Variable (expectsList expectsQuotes firstElement? isQuoted)

/-- Whether the comment is the same with the one test value as with the other. -/
def Directive.SameTests (test test' : List Char) : Directive → Prop
  | .bind _ => expectsList test = expectsList test'
  | .embedded _ _ => expectsList test = expectsList test' ∧ expectsQuotes test = expectsQuotes test'
  | _ => True

theorem Directive.SameTests.refl (test : List Char) (d : Directive) : d.SameTests test test := by
  cases d with
  | bind => exact rfl
  | embedded => exact ⟨rfl, rfl⟩
  | _ => trivial

theorem Directive.SameTests.symm {test test' : List Char} {d : Directive}
    (h : d.SameTests test test') : d.SameTests test' test := by
  cases d with
  | bind => exact Eq.symm h
  | embedded => exact ⟨h.1.symm, h.2.symm⟩
  | _ => trivial

/-- The second lexeme is the first one, wherever it stands, with a test value that decides the
same. -/
inductive Lexeme.Alike : Lexeme → Lexeme → Prop where
  | text (s : String) : Alike (.text s) (.text s)
  | comment (body : List Char) (start start' : Text.Position) {test test' : List Char}
      (h : (Directive.ofBody body).SameTests test test') :
      Alike (.comment body start test) (.comment body start' test')

/-- What two comments say that differ in nothing but the test value. -/
inductive Item.Alike : Item → Item → Prop where
  | node {n n' : Node} (h : n'.canonicalTests = n.canonicalTests) : Alike (.node n) (.node n')
  | opening (o : Opening) : Alike (.opening o) (.opening o)
  | closing (c : Closing) : Alike (.closing c) (.closing c)

theorem Opening.canonicalTests_node (o : Opening) (body : List Node)
    (otherwise : Option (List Node)) :
    (o.node body otherwise).canonicalTests =
      o.node (Node.canonicalTestsAll body) (Node.canonicalTestsOption otherwise) := by
  cases o with
  | ifBlock condition =>
      rw [node, node, Node.canonicalTests, Node.canonicalTestsAll_adjustConnector,
        Node.canonicalTestsOption_map_adjustConnector]
  | forBlock | block | first | last => rfl

namespace Source

variable {s : Source} {inLoop : Bool}

theorem readVariable_replaceTest {p : Place} {e test : List Char} {v : Variable}
    (h : s.readVariable inLoop p e test = .ok v) (s' : Source) (p' : Place) (test' : List Char) :
    s'.readVariable inLoop p' e test' = .ok { v with testValue := String.ofList test' } ∧
      v.testValue.toList = test := by
  obtain ⟨hpath, hexpression, htest⟩ := readVariable_eq_ok_iff.1 h
  constructor
  · exact readVariable_eq_ok_iff.2 ⟨readPath_of_eq_ok hpath s' p', hexpression, rfl⟩
  · rw [htest, String.toList_ofList]

/-- A comment says the same with the other test value, wherever it stands. -/
theorem exists_item_alike {body : List Char} {start : Text.Position} {test : List Char} {i : Item}
    (h : s.item inLoop ⟨body, start⟩ test = .ok i) {test' : List Char}
    (htest : (Directive.ofBody body).SameTests test test') (s' : Source)
    (start' : Text.Position) :
    ∃ i', s'.item inLoop ⟨body, start'⟩ test' = .ok i' ∧ i.Alike i' := by
  simp only [item_eq_ok_iff] at h ⊢
  generalize Directive.ofBody body = d at h htest ⊢
  cases h with
  | plain => exact ⟨_, .plain, .node rfl⟩
  | @bind _ v hv =>
      obtain ⟨hv', hold⟩ := readVariable_replaceTest hv s' ⟨body, start'⟩ test'
      have hlist : expectsList v.testValue.toList = expectsList test' := by rwa [hold]
      refine ⟨_, .bind hv', .node ?_⟩
      simp only [Node.canonicalTests, Variable.canonicalBound, hlist, String.toList_ofList]
  | @embedded _ _ v hv =>
      obtain ⟨hv', hold⟩ := readVariable_replaceTest hv s' ⟨body, start'⟩ test'
      have hlist : expectsList v.testValue.toList = expectsList test' := hold ▸ htest.1
      have hquotes : expectsQuotes v.testValue.toList = expectsQuotes test' := hold ▸ htest.2
      refine ⟨_, .embedded hv', .node ?_⟩
      simp only [Node.canonicalTests, Variable.canonicalEmbedded, hlist, hquotes,
        String.toList_ofList]
  | ifMark hcondition => exact ⟨_, .ifMark (readCondition_of_eq_ok hcondition s'), .opening _⟩
  | forMark hpath hlike =>
      exact ⟨_, .forMark (readPath_of_eq_ok hpath s' _) hlike, .opening _⟩
  | beginMark => exact ⟨_, .beginMark, .opening _⟩
  | firstMark hloop => exact ⟨_, .firstMark hloop, .opening _⟩
  | lastMark hloop => exact ⟨_, .lastMark hloop, .opening _⟩
  | nextMark hloop hquoted => exact ⟨_, .nextMark hloop hquoted, .node rfl⟩
  | elseMark => exact ⟨_, .elseMark, .closing _⟩
  | endMark => exact ⟨_, .endMark, .closing _⟩

/-- From lexemes that are alike the same nodes are read, but for their test values. -/
theorem Reads.exists_reads_alike {ls : List Lexeme} {ns : List Node} {c : Closing}
    {rest : List Lexeme} (h : s.Reads inLoop ls ns c rest) {s' : Source}
    (hfault : s'.fault = none) {ls' : List Lexeme} (hls : List.Forall₂ Lexeme.Alike ls ls') :
    ∃ ns' rest', s'.Reads inLoop ls' ns' c rest' ∧ List.Forall₂ Lexeme.Alike rest rest' ∧
      Node.canonicalTestsAll ns' = Node.canonicalTestsAll ns := by
  induction h generalizing ls' with
  | stop _ =>
      cases hls
      exact ⟨[], [], .stop hfault, .nil, rfl⟩
  | text _ ih =>
      cases hls with
      | cons hl hls =>
          cases hl
          obtain ⟨ns', rest', hreads, hrest, hns⟩ := ih hls
          exact ⟨_, rest', .text hreads, hrest, congrArg (_ :: ·) hns⟩
  | node hitem _ ih =>
      cases hls with
      | cons hl hls =>
          cases hl with
          | comment _ _ start' htest =>
              obtain ⟨i', hitem', halike⟩ := exists_item_alike hitem htest s' start'
              cases halike with
              | node hn =>
                  obtain ⟨ns', rest', hreads, hrest, hns⟩ := ih hls
                  refine ⟨_, rest', .node hitem' hreads, hrest, ?_⟩
                  rw [Node.canonicalTestsAll, Node.canonicalTestsAll, hn, hns]
  | closing hitem =>
      cases hls with
      | cons hl hls =>
          cases hl with
          | comment _ _ start' htest =>
              obtain ⟨i', hitem', halike⟩ := exists_item_alike hitem htest s' start'
              cases halike
              exact ⟨[], _, .closing hitem', hls, rfl⟩
  | block hitem _ _ ihpart ihrest =>
      cases hls with
      | cons hl hls =>
          cases hl with
          | comment _ _ start' htest =>
              obtain ⟨i', hitem', halike⟩ := exists_item_alike hitem htest s' start'
              cases halike
              obtain ⟨part', mid', hpart, hmid, hps⟩ := ihpart hls
              obtain ⟨ns', rest', hreads, hrest, hns⟩ := ihrest hmid
              refine ⟨_, rest', .block hitem' hpart hreads, hrest, ?_⟩
              rw [Node.canonicalTestsAll, Node.canonicalTestsAll, Opening.canonicalTests_node,
                Opening.canonicalTests_node, hps, hns]
  | parts hitem hallows _ _ _ ihpart ihsecond ihrest =>
      cases hls with
      | cons hl hls =>
          cases hl with
          | comment _ _ start' htest =>
              obtain ⟨i', hitem', halike⟩ := exists_item_alike hitem htest s' start'
              cases halike
              obtain ⟨part', mid, hpart, hmid, hps⟩ := ihpart hls
              obtain ⟨second', mid', hsecond, hmid', hss⟩ := ihsecond hmid
              obtain ⟨ns', rest', hreads, hrest, hns⟩ := ihrest hmid'
              refine ⟨_, rest', .parts hitem' hallows hpart hsecond hreads, hrest, ?_⟩
              rw [Node.canonicalTestsAll, Node.canonicalTestsAll, Opening.canonicalTests_node,
                Opening.canonicalTests_node, Node.canonicalTestsOption,
                Node.canonicalTestsOption, hps, hss, hns]

end Source

namespace Cursor

/-- One token is read, with the test value behind it. -/
inductive Passes : Cursor → Cursor → Prop where
  | text {c c' : Cursor} {s : String} (hnext : c.next = .ok (.text s, c')) : Passes c c'
  | comment {c c' : Cursor} {body : String} (hnext : c.next = .ok (.comment body, c')) :
      Passes c (c'.takeTestValue (.ofBody body.toList)).2

/-- The reader of a text comes from the one place to the other. -/
def Reaches : Cursor → Cursor → Prop :=
  Relation.ReflTransGen Passes

/-- If the rest of the first text is cut into lexemes, then so is that of the second one, and into
lexemes that are alike. -/
def LexesAlike (c c' : Cursor) : Prop :=
  ∀ ls, c.Lexes ls none → ∃ ls', c'.Lexes ls' none ∧ List.Forall₂ Lexeme.Alike ls ls'

variable {c c' d d' : Cursor}

theorem LexesAlike.text {s : String} (h : d.LexesAlike d') (hnext : c.next = .ok (.text s, d))
    (hnext' : c'.next = .ok (.text s, d')) : c.LexesAlike c' := by
  intro ls hls
  cases hls with
  | text hfirst hrest =>
      cases hnext.symm.trans hfirst
      obtain ⟨ls', hls', halike⟩ := h _ hrest
      exact ⟨_, .text hnext' hls', .cons (.text s) halike⟩
  | stop hfirst | comment hfirst => cases hnext.symm.trans hfirst

theorem LexesAlike.comment {body : String}
    (h : (d.takeTestValue (.ofBody body.toList)).2.LexesAlike
      (d'.takeTestValue (.ofBody body.toList)).2)
    (htest : (Directive.ofBody body.toList).SameTests
      (d.takeTestValue (.ofBody body.toList)).1 (d'.takeTestValue (.ofBody body.toList)).1)
    (hnext : c.next = .ok (.comment body, d)) (hnext' : c'.next = .ok (.comment body, d')) :
    c.LexesAlike c' := by
  intro ls hls
  cases hls with
  | comment hfirst hrest =>
      cases hnext.symm.trans hfirst
      obtain ⟨ls', hls', halike⟩ := h _ hrest
      exact ⟨_, .comment hnext' hls', .cons (.comment _ _ _ htest) halike⟩
  | stop hfirst | text hfirst => cases hnext.symm.trans hfirst

/-- The same comment is read before every rest. -/
theorem next_of_next_eq_comment {body : String} (hnext : c.next = .ok (.comment body, d))
    {r : List Char} (hc' : c'.rest = commentText body.toList ++ r) :
    c'.next = .ok (.comment body, c'.advance (commentText body.toList) r) := by
  have hnext' := next_of_closing_not_infix (closing_not_infix_of_next_eq_comment hnext) hc'
  rwa [String.ofList_toList] at hnext'

theorem rest_eq_of_next_eq_comment {body r : List Char}
    (hnext : c.next = .ok (.comment (String.ofList body), d))
    (hc : c.rest = commentText body ++ r) : d.rest = r := by
  have hpiece := source_append_of_next_eq_ok hnext
  rw [Token.source, String.toList_ofList, hc] at hpiece
  exact List.append_cancel_left hpiece

/-- The same test value is taken where the rest is the same. -/
theorem takeTestValue_of_rest_eq {dir : Directive} (h : c'.rest = c.rest) :
    (c'.takeTestValue dir).1 = (c.takeTestValue dir).1 ∧
      (c'.takeTestValue dir).2.rest = (c.takeTestValue dir).2.rest :=
  takeTestValue_of_beginsAlike rfl rfl (h.trans (takeTestValue_append c dir).symm)

/-- A text is cut into the same lexemes wherever it stands. -/
theorem lexesAlike_of_rest_eq (h : c'.rest = c.rest) : c.LexesAlike c' := by
  intro ls hls
  generalize hfault : none = fault at hls
  induction hls generalizing c' with
  | fault => cases hfault
  | stop hnext =>
      rw [rest_eq_nil_of_next_eq_stop hnext] at h
      exact ⟨[], .stop (next_of_rest_eq_nil h), .nil⟩
  | @text c s d _ _ hnext hrest ih =>
      rw [← source_append_of_next_eq_ok hnext] at h
      have hnext' := next_of_next_eq_text hnext rfl h
      have hd : (c'.advance s.toList d.rest).rest = d.rest := rfl
      obtain ⟨ls', hls', halike⟩ := ih hd hfault
      exact ⟨_, .text hnext' hls', .cons (.text s) halike⟩
  | @comment c body d _ _ hnext hrest ih =>
      rw [← source_append_of_next_eq_ok hnext] at h
      have hnext' := next_of_next_eq_comment hnext h
      have hd : (c'.advance (commentText body.toList) d.rest).rest = d.rest := rfl
      obtain ⟨htest, hbehind⟩ := takeTestValue_of_rest_eq hd
      obtain ⟨ls', hls', halike⟩ := ih hbehind hfault
      refine ⟨_, .comment hnext' hls', .cons (.comment _ _ _ ?_) halike⟩
      rw [htest]
      exact .refl _ _

/-- In front of the place that the reader comes to, nothing depends on what is behind it but how
it begins. -/
theorem Reaches.exists_lexesAlike (h : c.Reaches d) :
    ∃ p, c.rest = p ++ d.rest ∧
      ∀ r, BeginsAlike d.rest r → (∀ d', d'.rest = r → d.LexesAlike d') →
        ∀ c', c'.rest = p ++ r → c.LexesAlike c' := by
  induction h using Relation.ReflTransGen.head_induction_on with
  | refl => exact ⟨[], rfl, fun r _ hd c' hc' => hd c' hc'⟩
  | head hpass _ ih =>
      obtain ⟨p, hp, hbehind⟩ := ih
      cases hpass with
      | @text _ s hnext =>
          have hpiece := source_append_of_next_eq_ok hnext
          refine ⟨s.toList ++ p, ?_, fun r halike hd c' hc' => ?_⟩
          · rw [← hpiece, hp, List.append_assoc]
            rfl
          · rw [List.append_assoc] at hc'
            have hnext' := next_of_next_eq_text hnext (hp ▸ halike.append p) hc'
            exact .text (hbehind r halike hd _ rfl) hnext hnext'
      | @comment d₁ body hnext =>
          have hpiece := source_append_of_next_eq_ok hnext
          have htake := takeTestValue_append d₁ (.ofBody body.toList)
          refine ⟨commentText body.toList ++ ((d₁.takeTestValue (.ofBody body.toList)).1 ++ p), ?_,
            fun r halike hd c' hc' => ?_⟩
          · rw [← hpiece, ← htake, hp, List.append_assoc, List.append_assoc]
            rfl
          · rw [List.append_assoc, List.append_assoc] at hc'
            have hnext' := next_of_next_eq_comment hnext hc'
            obtain ⟨htest, hrest⟩ := takeTestValue_of_beginsAlike (d := .ofBody body.toList)
              (hp ▸ halike.append p) rfl
              (show (c'.advance (commentText body.toList) _).rest = _ from rfl)
            refine .comment (hbehind r halike hd _ hrest) ?_ hnext hnext'
            rw [htest]
            exact .refl _ _

end Cursor

/-- A template with a comment behind some text and a test value behind the comment. -/
def withTest (a body test b : List Char) : String :=
  String.ofList (a ++ (commentText body ++ (test ++ b)))

/-- The reader of the template comes to the comment, and cuts off the whole test value behind it
and no more. -/
def TakesTest (a body test b : List Char) : Prop :=
  ∃ c c', (Cursor.ofText (withTest a body test b)).Reaches c ∧
    c.rest = commentText body ++ (test ++ b) ∧
    c.next = .ok (.comment (String.ofList body), c') ∧ (c'.testValue .full).1 = test

namespace TakesTest

variable {a body test test' b : List Char}

theorem testValue_eq (h : TakesTest a body test b) :
    testValue .full (test ++ b) = (test, b) := by
  obtain ⟨c, c', -, hc, hnext, htest⟩ := h
  have hpiece := Cursor.rest_eq_of_next_eq_comment hnext hc
  have htest : (testValue .full c'.rest).1 = test := htest
  have happend := testValue_append .full c'.rest
  rw [htest, hpiece, List.append_cancel_left_eq] at happend
  rw [hpiece] at htest
  exact Prod.ext htest happend

/-- There are no blanks in front of a test value. -/
theorem expectsList_eq (h : TakesTest a body test b) :
    expectsList test = (test.head? == some '(') := by
  have htest := congrArg Prod.fst h.testValue_eq
  cases test with
  | nil => rfl
  | cons c s =>
      have hc : Text.isBlank c = false := by
        by_contra hblank
        rw [Bool.not_eq_false] at hblank
        rw [List.cons_append, testValue] at htest
        split at htest
        next hquote => subst hquote; exact absurd hblank (by decide)
        next =>
          split at htest
          next hparen => subst hparen; exact absurd hblank (by decide)
          next => simp [spanWord, endsWord, hblank] at htest
      rw [expectsList, Text.trimStart_cons_of_not_isBlank hc]

/-- The two templates are cut into lexemes that are alike. -/
theorem lexesAlike (h : TakesTest a body test b) (h' : TakesTest a body test' b)
    (hextent : (Directive.ofBody body).extent? = some .full)
    (hsame : (Directive.ofBody body).SameTests test test') :
    (Cursor.ofText (withTest a body test b)).LexesAlike (.ofText (withTest a body test' b)) := by
  have hvalue := h.testValue_eq
  obtain ⟨c, d, hreaches, hc, hnext, htest⟩ := h
  obtain ⟨p, hp, hall⟩ := hreaches.exists_lexesAlike
  have hpiece := Cursor.rest_eq_of_next_eq_comment hnext hc
  have hp : a = p := by
    rw [hc, Cursor.ofText, withTest, String.toList_ofList] at hp
    exact List.append_cancel_right hp
  subst hp
  have htake (e : Cursor) (t : List Char) (he : e.rest = t ++ b)
      (ht : testValue .full (t ++ b) = (t, b)) :
      (e.takeTestValue (.ofBody body)).1 = t ∧ (e.takeTestValue (.ofBody body)).2.rest = b := by
    rw [Cursor.takeTestValue, hextent]
    dsimp only [Cursor.testValue, Cursor.advance]
    rw [he, ht]
    exact ⟨rfl, rfl⟩
  refine hall (commentText body ++ (test' ++ b)) (by rw [hc]; rfl) ?_ _ String.toList_ofList
  intro c' hc'
  rw [← String.toList_ofList (l := body)] at hc'
  obtain ⟨d', hnext', hd'⟩ : ∃ d', c'.next = .ok (.comment (String.ofList body), d') ∧
      d'.rest = test' ++ b :=
    ⟨_, Cursor.next_of_next_eq_comment hnext hc', rfl⟩
  obtain ⟨htest, hrest⟩ := htake d test hpiece hvalue
  obtain ⟨htest', hrest'⟩ := htake d' test' hd' h'.testValue_eq
  refine .comment ?_ ?_ hnext hnext'
  · rw [String.toList_ofList]
    exact Cursor.lexesAlike_of_rest_eq (hrest'.trans hrest.symm)
  · rw [String.toList_ofList, htest, htest']
    exact hsame

end TakesTest

/-- What a template gives, another one gives that is cut into lexemes that are alike. -/
theorem render_of_lexesAlike {source source' : String}
    (h : (Cursor.ofText source).LexesAlike (.ofText source')) {arguments : Arguments}
    {config : Config} {q : BoundSql} (hq : render source arguments config = .ok q) :
    render source' arguments config = .ok q := by
  obtain ⟨t, ht, hq⟩ := Except.bind_eq_ok_iff.1 hq
  obtain ⟨ns, hns, ht⟩ := Except.bind_eq_ok_iff.1 ht
  cases ht
  rw [readNodes_eq_ok_iff] at hns
  have hlexes := Cursor.lexes_readAll (.ofText source)
  have hfault : (Lexeme.readAll (.ofText source)).2 = none := fault_eq_none_of_reads hns rfl
  rw [hfault] at hlexes
  obtain ⟨ls', hlexes', halike⟩ := h _ hlexes
  have hfault' : (Source.mk source' none).fault = none := rfl
  obtain ⟨ns', rest', hreads, hrest, hsame⟩ := hns.exists_reads_alike hfault' halike
  cases hrest
  have hns' : readNodes source' false = .ok ns' := by
    rw [readNodes_eq_ok_iff, hlexes'.readAll_eq]
    exact hreads
  have hevaluate : evaluate ⟨source', ns'⟩ arguments config =
      evaluate ⟨source', ns⟩ arguments config := by
    rw [evaluate, evaluate, ← evaluateNodes_canonicalTests, hsame, evaluateNodes_canonicalTests]
  have hagrees : arguments.AgreesOn (Template.arguments ⟨source, ns⟩) arguments :=
    fun name _ => ⟨rfl, rfl⟩
  rw [render, ofText, hns']
  exact hevaluate.trans ((resultsMatch_evaluate hagrees config source source').eq_ok hq)

/-- The values that a template gives do not depend on a test value, as long as a list is expected
or not, and quotes around embedded text are or not. -/
theorem render_of_takesTest {a body test test' b : List Char}
    (hbody : (∃ e, Directive.ofBody body = .bind e) ∨
      ∃ e, Directive.ofBody body = .embedded .normal e)
    (htakes : TakesTest a body test b) (htakes' : TakesTest a body test' b)
    (hlist : test.head? = some '(' ↔ test'.head? = some '(')
    (hquotes : ∀ e, Directive.ofBody body = .embedded .normal e →
      if test.head? = some '(' then
        (firstElement? test).any isQuoted = (firstElement? test').any isQuoted
      else isQuoted test = isQuoted test')
    (arguments : Arguments) (config : Config) (q : BoundSql) :
    render (withTest a body test b) arguments config = .ok q ↔
      render (withTest a body test' b) arguments config = .ok q := by
  have hextent : (Directive.ofBody body).extent? = some .full := by
    rcases hbody with ⟨e, he⟩ | ⟨e, he⟩
    all_goals
      rw [he]
      rfl
  have hlists : expectsList test = expectsList test' := by
    rw [htakes.expectsList_eq, htakes'.expectsList_eq, Bool.eq_iff_iff, beq_iff_eq, beq_iff_eq]
    exact hlist
  have hsame : (Directive.ofBody body).SameTests test test' := by
    rcases hbody with ⟨e, he⟩ | ⟨e, he⟩
    · rw [he]
      exact hlists
    · have hquotes := hquotes e he
      rw [he]
      refine ⟨hlists, ?_⟩
      rw [expectsQuotes, expectsQuotes, ← hlists, htakes.expectsList_eq]
      split at hquotes
      next hparen => simpa [hparen] using hquotes
      next hparen => simpa [hparen] using hquotes
  exact ⟨render_of_lexesAlike (htakes.lexesAlike htakes' hextent hsame),
    render_of_lexesAlike (htakes'.lexesAlike htakes hextent hsame.symm)⟩

/-- A literal is replaced by one with an escaped quote mark and the end of a block in it. -/
theorem render_of_takesTest_literal :
    let a := "x /*BEGIN*/where y = ".toList
    let b := "/*END*/ -- z".toList
    let arguments : Arguments := ⟨[("p", .string "it's")], []⟩
    TakesTest a "$p".toList "'x'".toList b ∧
      TakesTest a "$p".toList "'/*END*/ '''".toList b ∧
      render (withTest a "$p".toList "'x'".toList b) arguments {} =
        .ok ⟨"x where y = 'it''s' -- z", [], []⟩ ∧
      render (withTest a "$p".toList "'/*END*/ '''".toList b) arguments {} =
        .ok ⟨"x where y = 'it''s' -- z", [], []⟩ := by
  intro a b arguments
  have hsource : withTest a "$p".toList "'x'".toList b =
      "x /*BEGIN*/where y = /*$p*/'x'/*END*/ -- z" := by decide
  have hsource' : withTest a "$p".toList "'/*END*/ '''".toList b =
      "x /*BEGIN*/where y = /*$p*/'/*END*/ '''/*END*/ -- z" := by decide
  have htakes : TakesTest a "$p".toList "'x'".toList b := by
    rw [TakesTest, hsource]
    exact ⟨_, _, .head (.text rfl) (.head (.comment rfl) (.single (.text rfl))), rfl, rfl, rfl⟩
  have htakes' : TakesTest a "$p".toList "'/*END*/ '''".toList b := by
    rw [TakesTest, hsource']
    exact ⟨_, _, .head (.text rfl) (.head (.comment rfl) (.single (.text rfl))), rfl, rfl, rfl⟩
  have hread : readNodes "x /*BEGIN*/where y = /*$p*/'x'/*END*/ -- z" false =
      .ok [.text "x ", .block [.text "where y = ",
        .embedded ⟨"p", ⟨.argument "p", []⟩, .none, "'x'"⟩ .normal], .text " -- z"] := by
    have hlexes : (Cursor.ofText "x /*BEGIN*/where y = /*$p*/'x'/*END*/ -- z").Lexes _ none :=
      .text rfl (.comment rfl (.text rfl (.comment rfl (.comment rfl (.text rfl (.stop rfl))))))
    rw [readNodes_eq_ok_iff, hlexes.readAll_eq]
    exact .text (.block (o := .block) rfl (.text (.node rfl (.closing rfl)))
      (.text (.stop rfl)))
  have hrender : render (withTest a "$p".toList "'x'".toList b) arguments {} =
      .ok ⟨"x where y = 'it''s' -- z", [], []⟩ := by
    rw [hsource, render, ofText, hread]
    cbv
  have hquotes : ∀ e, Directive.ofBody "$p".toList = .embedded .normal e →
      if "'x'".toList.head? = some '(' then
        (firstElement? "'x'".toList).any isQuoted =
          (firstElement? "'/*END*/ '''".toList).any isQuoted
      else isQuoted "'x'".toList = isQuoted "'/*END*/ '''".toList := by
    intro e _
    decide
  have hbody : Directive.ofBody "$p".toList = .embedded .normal ['p'] := by decide
  refine ⟨htakes, htakes', hrender, ?_⟩
  rw [← render_of_takesTest (.inr ⟨_, hbody⟩) htakes htakes' (by decide) hquotes]
  exact hrender

end SqlTemplate.Template
