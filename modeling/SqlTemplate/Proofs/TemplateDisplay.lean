import Mathlib
import SqlTemplate.Proofs.Display
import SqlTemplate.Proofs.Lexemes
import SqlTemplate.Proofs.Origins
import SqlTemplate.Proofs.Placeholders
import SqlTemplate.Proofs.Printing

/-!
# The display of what a template gives

The display reads the SQL that a template gives in the way in which the tokens of a template are
looked for: quote marks open and close literals, and two hyphens begin a line comment
(`TextMode.Agrees`). So a text between the comments of a template ends in code
(`isCode_after_spanText`), and what an evaluation adds is read from code to code, in whatever order
it is added. What does not take part in this are the other texts: comments that are kept, which
the display reads although the template does not, and the separators of loops, and the escape
character of patterns. If they end in code too, and no two hyphens of different texts come
together, the display finds all placeholders of the SQL and nothing else
(`Template.display_of_evaluate`). Only the last text of a template may be a literal or a line
comment that does not end; nothing stands behind it.
-/

namespace SqlTemplate

open Text (quoteMark startsWith)

namespace Template

/-- Whether the display reads the text, in which the tokens are looked for, in the same way. -/
def TextMode.Agrees (mode : TextMode) (m : Reading) (s : List Char) : Prop :=
  match mode, m with
  | .code, .code | .literal, .literal | .lineComment, .lineComment => True
  | .code, .hyphen => s.head? ≠ some '-'
  | .lineComment, .hyphen => s.head? = some '-'
  | _, _ => False

theorem startsWith_lineCommentMark_cons {c : Char} {s : List Char} :
    startsWith lineCommentMark (c :: s) = true ↔ c = '-' ∧ s.head? = some '-' := by
  rw [startsWith, lineCommentMark, Text.dropStart?, eq_comm (a := c)]
  cases s with
  | nil => simp [Text.dropStart?]
  | cons d s =>
      rw [Text.dropStart?, Text.dropStart?, List.head?_cons, Option.some_inj, eq_comm (a := d)]
      split
      next hc =>
        split
        next hd => exact ⟨fun _ => ⟨hc, hd⟩, fun _ => rfl⟩
        next hd => simp [hd]
      next hc => simp [hc]

namespace TextMode.Agrees

variable {m : Reading} {c : Char} {s : List Char}

theorem next_lineCommentMark (h : TextMode.code.Agrees m (c :: s)) (hc : c = '-')
    (hs : s.head? = some '-') : TextMode.lineComment.Agrees (m.next c) s := by
  subst hc
  cases m with
  | code => exact hs
  | hyphen => exact absurd rfl h
  | literal | lineComment => cases h

theorem next_code (h : TextMode.code.Agrees m (c :: s)) (hline : ¬ (c = '-' ∧ s.head? = some '-')) :
    (if c = quoteMark then TextMode.literal else .code).Agrees (m.next c) s := by
  cases m with
  | code =>
      rw [Reading.next]
      by_cases hhyphen : c = '-'
      · subst hhyphen
        exact fun hs => hline ⟨rfl, hs⟩
      · rw [if_neg hhyphen]
        split <;> trivial
  | hyphen =>
      have hhyphen : c ≠ '-' := fun hc => h (congrArg some hc)
      rw [Reading.next, if_neg hhyphen]
      split <;> trivial
  | literal | lineComment => cases h

theorem next_literal (h : TextMode.literal.Agrees m (c :: s)) :
    (if c = quoteMark then TextMode.code else .literal).Agrees (m.next c) s := by
  cases m with
  | literal =>
      rw [Reading.next]
      split <;> trivial
  | code | hyphen | lineComment => cases h

theorem next_lineComment (h : TextMode.lineComment.Agrees m (c :: s)) :
    (if c = '\n' then TextMode.code else .lineComment).Agrees (m.next c) s := by
  cases m with
  | lineComment =>
      rw [Reading.next]
      split <;> trivial
  | hyphen =>
      obtain rfl : c = '-' := by simpa [Agrees] using h
      trivial
  | code | literal => cases h

end TextMode.Agrees

/-- A text before a comment ends in code. -/
theorem isCode_after_spanText {mode : TextMode} {m : Reading} {s : List Char}
    (h : mode.Agrees m s) (hrest : (spanText mode s).2 ≠ []) :
    (m.after (spanText mode s).1).isCode = true := by
  fun_induction spanText mode s generalizing m with
  | case1 => exact absurd rfl hrest
  | case2 =>
      cases m with
      | code | hyphen => rfl
      | literal | lineComment => cases h
  | case3 c s _ hline text rest hspan ih =>
      obtain ⟨hc, hs⟩ := startsWith_lineCommentMark_cons.1 hline
      rw [hspan] at ih
      exact ih (h.next_lineCommentMark hc hs) hrest
  | case4 c s _ hline text rest hspan ih =>
      rw [startsWith_lineCommentMark_cons] at hline
      rw [hspan] at ih
      exact ih (h.next_code hline) hrest
  | case5 c s text rest hspan ih =>
      rw [hspan] at ih
      exact ih h.next_literal hrest
  | case6 c s text rest hspan ih =>
      rw [hspan] at ih
      exact ih h.next_lineComment hrest

/-- Whether the text, if the comment adds one of its own, ends in code. A comment must not embed
a value, whose text may be any. -/
def Directive.EndsInCode (body : List Char) : Directive → Prop
  | .plain => Reading.EndsInCode (commentText body)
  | .nextMark text => ∀ s, Source.quoted? text = some s → Reading.EndsInCode s
  | .embedded .. => False
  | _ => True

namespace Lexeme

/-- Whether all texts that lexemes add end in code, but for a text behind all others. -/
def AllEndInCode : List Lexeme → Prop
  | [] => True
  | .text s :: ls => (ls ≠ [] → Reading.EndsInCode s.toList) ∧ AllEndInCode ls
  | .comment body _ _ :: ls => (Directive.ofBody body).EndsInCode body ∧ AllEndInCode ls

theorem AllEndInCode.of_suffix {ls ks : List Lexeme} (h : AllEndInCode ls) (hks : ks <:+ ls) :
    AllEndInCode ks := by
  obtain ⟨js, rfl⟩ := hks
  induction js with
  | nil => exact h
  | cons j js ih =>
      cases j with
      | text | comment => exact ih h.2

end Lexeme

namespace Cursor

/-- In a template the texts between comments end in code. -/
theorem Lexes.allEndInCode {c : Cursor} {ls : List Lexeme} {fault : Option ErrorKind}
    (h : c.Lexes ls fault) (hfault : fault = none)
    (hcomments : ∀ body start testValue, .comment body start testValue ∈ ls →
      (Directive.ofBody body).EndsInCode body) : Lexeme.AllEndInCode ls := by
  induction h with
  | fault | stop => trivial
  | @text c s c' ls fault hnext hrest ih =>
      refine ⟨fun hls => ?_, ih hfault fun body start testValue hmem =>
        hcomments body start testValue (List.mem_cons_of_mem _ hmem)⟩
      have hspan := (spanText_of_next_eq_text hnext).2.2
      have hmore : (spanText .code c.rest).2 ≠ [] := by
        rw [hspan]
        intro hnil
        have hstop : c'.Lexes [] none := .stop (next_of_rest_eq_nil hnil)
        exact hls (hstop.unique hrest).1
      have hagrees : TextMode.code.Agrees .code c.rest := trivial
      have hcode := isCode_after_spanText hagrees hmore
      rwa [hspan] at hcode
  | comment hnext hrest ih =>
      exact ⟨hcomments _ _ _ List.mem_cons_self, ih hfault fun body start testValue hmem =>
        hcomments body start testValue (List.mem_cons_of_mem _ hmem)⟩

end Cursor

namespace Node

/-- Whether the texts of the node end in code, and it embeds nothing. -/
def EndsInCode : Node → Prop
  | .text s | .separator s => Reading.EndsInCode s.toList
  | .connector word rest => Reading.EndsInCode word.toList ∧ Reading.EndsInCode rest.toList
  | .embedded .. => False
  | _ => True

/-- The nodes end in code, but for a text behind all others if the end of the template is behind
them. -/
def AllEndInCode (inLoop : Bool) (c : Closing) (ns : List Node) : Prop :=
  (c ≠ .stop → ∀ n ∈ ns, n.Throughout (fun _ => EndsInCode) inLoop) ∧
    ∃ init, (∀ n ∈ init, n.Throughout (fun _ => EndsInCode) inLoop) ∧
      (ns = init ∨ ∃ t, ns = init ++ [.text t])

variable {inLoop : Bool}

theorem AllEndInCode.nil (c : Closing) : AllEndInCode inLoop c [] :=
  ⟨fun _ => List.forall_mem_nil _, [], List.forall_mem_nil _, .inl rfl⟩

theorem AllEndInCode.cons {c : Closing} {n : Node} {ns : List Node}
    (hn : n.Throughout (fun _ => EndsInCode) inLoop) (hns : AllEndInCode inLoop c ns) :
    AllEndInCode inLoop c (n :: ns) := by
  obtain ⟨hall, init, hinit, heq⟩ := hns
  refine ⟨fun hc => List.forall_mem_cons.2 ⟨hn, hall hc⟩, n :: init,
    List.forall_mem_cons.2 ⟨hn, hinit⟩, ?_⟩
  rcases heq with rfl | ⟨t, rfl⟩
  · exact .inl rfl
  · exact .inr ⟨t, rfl⟩

end Node

/-- A connector holds blanks and the letters of its word. -/
theorem mem_of_cutConnector? {s connector rest : List Char}
    (h : cutConnector? s = some (connector, rest)) {c : Char} (hc : c ∈ connector) :
    Text.isBlank c = true ∨ c.toLower ∈ ("and" ++ "or").toList := by
  rw [cutConnector?, Option.or_eq_some_iff] at h
  rcases h with h | ⟨-, h⟩
  all_goals
    dsimp only at h
    split at h
    next hfound =>
      cases h
      rw [List.mem_append, List.mem_append] at hc
      rcases hc with (hc | hc) | hc
      · rw [List.span_eq_takeWhile_dropWhile] at hc
        exact .inl (List.mem_takeWhile_imp hc)
      · right
        have hlower := List.mem_map_of_mem (f := Char.toLower) hc
        rw [hfound.1] at hlower
        rw [String.toList_append, List.mem_append]
        first | exact .inl hlower | exact .inr hlower
      · rw [List.span_eq_takeWhile_dropWhile] at hc
        exact .inl (List.mem_takeWhile_imp hc)
    next => cases h

/-- A connector is read like nothing at all. -/
theorem after_of_cutConnector? {s connector rest : List Char}
    (h : cutConnector? s = some (connector, rest)) : Reading.code.after connector = .code := by
  have hplain : ∀ c ∈ connector, c ≠ '-' ∧ c ≠ quoteMark := by
    intro c hc
    have hmem := mem_of_cutConnector? h hc
    constructor
    · rintro rfl
      revert hmem
      decide
    · rintro rfl
      revert hmem
      decide
  clear h
  induction connector with
  | nil => rfl
  | cons c connector ih =>
      obtain ⟨hhyphen, hquote⟩ := hplain c List.mem_cons_self
      rw [Reading.after, List.foldl_cons, Reading.next, if_neg hhyphen, if_neg hquote]
      exact ih fun d hd => hplain d (List.mem_cons_of_mem c hd)

theorem Node.passesToConnectors_endsInCode : PassesToConnectors fun _ => EndsInCode := by
  intro inLoop s connector rest hcut hs
  have hconnector := after_of_cutConnector? hcut
  have hs : Reading.EndsInCode s.toList := hs
  constructor
  · rw [String.toList_ofList, Reading.EndsInCode, hconnector]
    rfl
  · rw [← append_of_cutConnector?_eq_some hcut, Reading.EndsInCode, Reading.after_append,
      hconnector] at hs
    rwa [String.toList_ofList]

namespace Source

variable {s : Source} {inLoop : Bool}

theorem endsInCode_of_item_eq_ok {p : Place} {testValue : List Char} {i : Item}
    (h : s.item inLoop p testValue = .ok i)
    (hcode : (Directive.ofBody p.body).EndsInCode p.body) : i.Has Node.EndsInCode := by
  rw [item_eq_ok_iff] at h
  generalize Directive.ofBody p.body = d at h hcode
  cases h with
  | plain =>
      rw [Item.Has, Node.EndsInCode, String.toList_ofList]
      exact hcode
  | nextMark hloop hquoted =>
      rw [Item.Has, Node.EndsInCode, String.toList_ofList]
      exact hcode _ hquoted
  | embedded => exact hcode
  | ifMark | forMark | beginMark | firstMark | lastMark => exact fun _ _ => trivial
  | bind | elseMark | endMark => trivial

/-- The nodes that the rules allow end in code if the lexemes do. -/
theorem Reads.allEndInCode {ls : List Lexeme} {ns : List Node} {c : Closing} {rest : List Lexeme}
    (h : s.Reads inLoop ls ns c rest) (hls : Lexeme.AllEndInCode ls) :
    Node.AllEndInCode inLoop c ns := by
  induction h with
  | stop => exact .nil .stop
  | @text inLoop t ls ns c rest hrest ih =>
      by_cases hnil : ls = []
      · -- The text is the last one.
        subst hnil
        cases hrest
        exact ⟨fun hc => absurd rfl hc, [], List.forall_mem_nil _, .inr ⟨t, rfl⟩⟩
      · exact .cons (Node.throughout_of_parts_eq_nil rfl (hls.1 hnil)) (ih hls.2)
  | node hitem _ ih =>
      refine .cons (Node.throughout_of_parts_eq_nil (parts_of_item_eq_ok hitem) ?_) (ih hls.2)
      exact endsInCode_of_item_eq_ok hitem hls.1
  | closing => exact .nil _
  | block hitem hpart hrest ihpart ihrest =>
      have hself := endsInCode_of_item_eq_ok hitem hls.1
      have hbody := (ihpart hls.2).1 (by rintro ⟨⟩)
      refine .cons ?_ (ihrest (hls.2.of_suffix hpart.isSuffix))
      exact Opening.throughout_node Node.passesToConnectors_endsInCode (hself _ _) hbody
        fun _ h => nomatch h
  | parts hitem hallows hpart hsecond hrest ihpart ihsecond ihrest =>
      have hself := endsInCode_of_item_eq_ok hitem hls.1
      have hmid := hls.2.of_suffix hpart.isSuffix
      have hbody := (ihpart hls.2).1 (by rintro ⟨⟩)
      have hotherwise := (ihsecond hmid).1 (by rintro ⟨⟩)
      refine .cons ?_ (ihrest (hmid.of_suffix hsecond.isSuffix))
      refine Opening.throughout_node Node.passesToConnectors_endsInCode (hself _ _) hbody ?_
      rintro second ⟨⟩
      exact hotherwise

end Source

/-- The nodes of a text end in code if the comments in it do. -/
theorem allEndInCode_of_readNodes {text : String} {inLoop : Bool} {ns : List Node}
    (h : readNodes text inLoop = .ok ns)
    (hcomments : ∀ body start testValue,
      .comment body start testValue ∈ (Lexeme.readAll (.ofText text)).1 →
        (Directive.ofBody body).EndsInCode body) : Node.AllEndInCode inLoop .stop ns := by
  have hreads := readNodes_eq_ok_iff.1 h
  have hlexes := Cursor.lexes_readAll (.ofText text)
  have hfault := fault_eq_none_of_reads hreads rfl
  exact hreads.allEndInCode (hlexes.allEndInCode hfault hcomments)

end Template

/-- All nodes of the scene end in code. -/
def Scene.EndsInCode : Scene → Prop :=
  Throughout fun _ _ => Template.Node.EndsInCode

namespace Scene

variable {scene reached : Scene}

theorem EndsInCode.of_reaches (h : scene.EndsInCode) (hreaches : scene.Reaches reached) :
    reached.EndsInCode :=
  Throughout.of_reaches h (fun _ _ _ _ _ _ hembedded _ => hembedded.elim) hreaches

theorem readsAsCode_listMark {s : String} (h : s ∈ Template.Variable.listMarks) :
    (Piece.inserted s).ReadsAsCode := by
  rw [Template.Variable.listMarks, List.mem_cons, List.mem_cons, List.mem_singleton] at h
  rcases h with rfl | rfl | rfl <;> exact ⟨by decide, by decide⟩

/-- An escape clause is read as code with a literal in it. -/
theorem readsAsCode_escapeClause {escape : Char} (h : escape ≠ quoteMark) :
    (Piece.inserted (Like.escapeClause escape)).ReadsAsCode := by
  have hclause : (Like.escapeClause escape).toList = " escape '".toList ++ [escape, quoteMark] := by
    simp [Like.escapeClause, quoteMark]
  have hopen : Reading.code.after " escape '".toList = .literal := by decide
  have hmarks : Reading.code.marksRead " escape '".toList = 0 := by decide
  constructor
  · rw [Piece.isRead, hclause, Reading.marksRead_append, hmarks, hopen]
    simp [Reading.marksRead, Reading.isCode, Reading.next, h]
  · rw [Reading.EndsInCode, Piece.sql, BoundSql.ofSql, hclause, Reading.after_append, hopen]
    simp [Reading.after, Reading.isCode, Reading.next, h]

/-- Where the nodes end in code, so does what they add. -/
theorem Adds.readsAsCode {p : Piece} (h : scene.EndsInCode)
    (hescape : scene.environment.config.likeEscape ≠ quoteMark)
    (hliteral : ∀ s, p.literal? = some s → '?' ∉ s.toList) (hadds : scene.Adds p) :
    p.ReadsAsCode := by
  have hmarks {s : String} (hs : '?' ∉ s.toList) : (Reading.code.marksRead s.toList == 0) = true :=
    beq_iff_eq.2 (Reading.marksRead_of_not_mem hs .code)
  cases hadds with
  | text hmem | separator hmem => exact ⟨hmarks (hliteral _ rfl), (h _ hmem).self⟩
  | connector hmem => exact ⟨hmarks (hliteral _ rfl), (h _ hmem).self.1⟩
  | rest hmem => exact ⟨hmarks (hliteral _ rfl), (h _ hmem).self.2⟩
  | bound hmem hps hp =>
      rcases Template.Variable.boundPieces_cases hps hp with ⟨w, type, rfl⟩ | ⟨s, hs, rfl⟩
      · refine ⟨rfl, ?_⟩
        rw [Piece.toList_sql_placeholder]
        rfl
      · rcases List.mem_cons.1 hs with rfl | hs
        · exact readsAsCode_escapeClause hescape
        · exact readsAsCode_listMark hs
  | inserted hmem => exact (h _ hmem).self.elim

end Scene

namespace Template

/-- A text behind other nodes is added behind what they add. -/
theorem Node.exists_pieces_of_concat {pieces : Variable.PieceEmbedding} {env : Environment}
    {loops : List Loop} {enabled : Bool} {ns : List Node} {s : String} {ps : List Piece}
    (h : (traceAll pieces env loops enabled (ns ++ [.text s])).toResult = .ok ps) :
    ∃ qs, (traceAll pieces env loops enabled ns).toResult = .ok qs ∧ ps = qs ++ [.literal s] := by
  induction ns generalizing enabled ps with
  | nil =>
      cases h
      exact ⟨[], rfl, rfl⟩
  | cons n ns ih =>
      obtain ⟨qs, rs, hqs, hrs, rfl⟩ := Trace.exists_of_toResult_andThen h
      obtain ⟨rs, hns, rfl⟩ := ih hrs
      exact ⟨qs ++ rs, Trace.toResult_andThen hqs hns, (List.append_assoc qs rs _).symm⟩

/-- No comment of the template embeds a value, and those that add text of their own end in code. -/
def CommentsEndInCode (t : Template) : Prop :=
  ∀ body start testValue,
    .comment body start testValue ∈ (Lexeme.readAll (.ofText t.source)).1 →
      (Directive.ofBody body).EndsInCode body

variable {t : Template} {arguments : Arguments} {config : Config}

/-- All that nodes add is read as what it is, if they end in code and no two hyphens come
together. -/
theorem allRead_of_endsInCode {env : Environment} {ns : List Node} {ps : List Piece}
    (hns : ∀ n ∈ ns, n.Throughout (fun _ => Node.EndsInCode) false)
    (hescape : env.config.likeEscape ≠ quoteMark)
    (hps : (traceNodes env [] true ns).toResult = .ok ps)
    (hliterals : ∀ s ∈ Piece.literals ps, '?' ∉ s.toList) (hapart : Piece.Apart ps) :
    Piece.allRead .code ps = true := by
  refine Piece.allRead_of_apart [] hapart ?_ rfl
  intro p hp
  obtain ⟨-, rfl⟩ := Trace.toResult_eq_ok_iff.1 hps
  obtain ⟨scene, hreaches, hadds⟩ := exists_adds_of_mem_traceNodes hp
  have hscene : Scene.EndsInCode ⟨env, [], ns⟩ := hns
  have hconfig : scene.environment.config = env.config := hreaches.partOf.config.symm
  refine hadds.readsAsCode (hscene.of_reaches hreaches) (hconfig ▸ hescape) fun s hs => ?_
  exact hliterals s (List.mem_filterMap.2 ⟨p, hp, hs⟩)

/-- The display writes the values where their placeholders are if all question marks of the SQL are
read as what they are. Where no text holds a question mark of its own that is the only way, and so
it is in a template without embedded values, unless a comment that is kept, a separator or the
escape character leads out of code, or two hyphens come together. -/
theorem display_of_evaluate {q : BoundSql} (h : t.evaluate arguments config = .ok q) :
    ∃ ps, t.pieces arguments config = .ok ps ∧ q = .ofPieces ps ∧
      (Piece.allRead .code ps = true → q.display = Piece.inlined ps) ∧
      ((∀ s ∈ Piece.literals ps, '?' ∉ s.toList) →
        (config.likeEscape ≠ '?' → q.display = Piece.inlined ps → Piece.allRead .code ps = true) ∧
        (readNodes t.source false = .ok t.nodes → t.CommentsEndInCode →
          config.likeEscape ≠ quoteMark → Piece.Apart ps → Piece.allRead .code ps = true)) := by
  obtain ⟨ps, hps, rfl, -⟩ := exists_pieces_of_evaluate h
  refine ⟨ps, hps, rfl, BoundSql.display_of_allRead, fun hliterals => ⟨fun hescape => ?_, ?_⟩⟩
  · refine BoundSql.allRead_of_display_eq ?_ hliterals
    obtain ⟨-, rfl⟩ := Trace.toResult_eq_ok_iff.1 hps
    let env : Environment := ⟨arguments, config, t.source, 0⟩
    have henv : env.config.likeEscape ≠ '?' := hescape
    exact isSafe_of_mem_traceNodes henv [] true t.nodes
  · intro hread hcomments hescape hapart
    obtain ⟨-, init, hinit, hnodes⟩ := allEndInCode_of_readNodes hread hcomments
    rcases hnodes with hnodes | ⟨s, hnodes⟩
    · exact allRead_of_endsInCode (hnodes ▸ hinit) hescape hps hliterals hapart
    · -- How the last text ends makes no difference.
      rw [pieces, hnodes] at hps
      obtain ⟨qs, hqs, rfl⟩ := Node.exists_pieces_of_concat hps
      rw [Piece.literals, List.filterMap_append, List.forall_mem_append] at hliterals
      refine Piece.allRead_concat ?_ (hliterals.2 s List.mem_cons_self)
      exact allRead_of_endsInCode hinit hescape hqs hliterals.1 hapart.of_append

/-- A comment without quote marks and hyphens is kept, and the value behind it is written. -/
theorem display_of_evaluate_comment :
    let v : Variable := ⟨"p", ⟨.argument "p", []⟩, .none, "1"⟩
    let t : Template := ⟨"/* keep */ where ID = /*p*/1",
      [.text "/* keep */", .text " where ID = ", .bind v]⟩
    let q : BoundSql := ⟨"/* keep */ where ID = ?", [.int32 7], [.integer]⟩
    t.evaluate ⟨[("p", .int32 7)], []⟩ {} = .ok q ∧ q.display = "/* keep */ where ID = 7" := by
  intro v t q
  have hevaluate : t.evaluate ⟨[("p", .int32 7)], []⟩ {} = .ok q := by cbv
  have hpieces : t.pieces ⟨[("p", .int32 7)], []⟩ {} =
      .ok [.literal "/* keep */", .literal " where ID = ", .placeholder (.int32 7) .integer] := by
    cbv
  have hlexemes : Lexeme.readAll (.ofText t.source) =
      ([.comment " keep ".toList .start [], .text " where ID = ",
        .comment "p".toList ⟨22, 1, 23⟩ "1".toList], none) := by cbv
  have hread : readNodes t.source false = .ok t.nodes := by
    rw [readNodes_eq_ok_iff, hlexemes]
    exact .node rfl (.text (.node rfl (.stop rfl)))
  refine ⟨hevaluate, ?_⟩
  obtain ⟨ps, hps, -, hdisplay, hsource⟩ := display_of_evaluate hevaluate
  cases hpieces.symm.trans hps
  have hall := (hsource (by decide)).2 hread ?_ (by decide) ?_
  · rw [hdisplay hall]
    decide
  · intro body start testValue hmem
    rw [hlexemes] at hmem
    rcases hmem with _ | ⟨_, _ | ⟨_, _ | ⟨_, hmem⟩⟩⟩
    · have hplain : Reading.EndsInCode (commentText " keep ".toList) := by decide
      exact hplain
    · trivial
    · cases hmem
  · -- No piece starts with a hyphen.
    intro before p after hsplit hhead
    have hp := List.mem_append_right before (List.mem_cons_self (a := p) (l := after))
    rw [← hsplit] at hp
    rcases hp with _ | ⟨_, _ | ⟨_, _ | ⟨_, hp⟩⟩⟩
    · cases hhead
    · cases hhead
    · cases hhead
    · cases hp

/-- The display may leave a placeholder as it is: behind a quote mark in a comment. -/
theorem not_forall_display_eq_inlined :
    ¬ ∀ (t : Template) (arguments : Arguments) (config : Config) (q : BoundSql) (ps : List Piece),
      readNodes t.source false = .ok t.nodes →
      (∀ body start testValue,
        .comment body start testValue ∈ (Lexeme.readAll (.ofText t.source)).1 →
          ∀ mode e, Directive.ofBody body ≠ .embedded mode e) →
      t.evaluate arguments config = .ok q → t.pieces arguments config = .ok ps →
      (∀ s ∈ Piece.literals ps, '?' ∉ s.toList) → q.display = Piece.inlined ps := by
  intro h
  let v : Variable := ⟨"p", ⟨.argument "p", []⟩, .none, "1"⟩
  let t : Template := ⟨"/* don't */ where ID = /*p*/1",
    [.text "/* don't */", .text " where ID = ", .bind v]⟩
  have hevaluate : t.evaluate ⟨[("p", .int32 7)], []⟩ {} =
      .ok ⟨"/* don't */ where ID = ?", [.int32 7], [.integer]⟩ := by cbv
  have hpieces : t.pieces ⟨[("p", .int32 7)], []⟩ {} =
      .ok [.literal "/* don't */", .literal " where ID = ", .placeholder (.int32 7) .integer] := by
    cbv
  have hlexemes : Lexeme.readAll (.ofText t.source) =
      ([.comment " don't ".toList .start [], .text " where ID = ",
        .comment "p".toList ⟨23, 1, 24⟩ "1".toList], none) := by cbv
  have hread : readNodes t.source false = .ok t.nodes := by
    rw [readNodes_eq_ok_iff, hlexemes]
    exact .node rfl (.text (.node rfl (.stop rfl)))
  have hdisplay := h _ _ _ _ _ hread ?_ hevaluate hpieces (by decide)
  · revert hdisplay
    decide
  · intro body start testValue hmem
    rw [hlexemes] at hmem
    rcases hmem with _ | ⟨_, _ | ⟨_, _ | ⟨_, hmem⟩⟩⟩
    · rintro mode e ⟨⟩
    · rintro mode e ⟨⟩
    · cases hmem

end Template

end SqlTemplate
