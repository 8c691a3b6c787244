import Mathlib
import SqlTemplate.Evaluation.Node

/-!
# Plain text

A text is plain if no comment that is found in it asks for anything (`IsPlain`). Reading
such a text gives text nodes only, which together are the text (`readNodes_of_isPlain`), and
evaluating text nodes adds the text as it is (`evaluateAll_textNodes`). Nothing is said of where
comments may stand: a comment mark in a string literal finds no comment, and one without an
end is a fault, which ends the reading.

That nothing is lost holds of every text: the lexemes of a text without a fault make up the
text (`readAll_lossless`).
-/

namespace SqlTemplate.Template

/-- The text that the token was read from. -/
def Token.source : Token → List Char
  | .text s => s.toList
  | .comment body => commentText body.toList
  | .stop => []

namespace Cursor

/-- Reading a token loses nothing. -/
theorem source_append_of_next_eq_ok {c c' : Cursor} {t : Token}
    (h : c.next = .ok (t, c')) : t.source ++ c'.rest = c.rest := by
  rw [next] at h
  split at h
  next s hs =>
    split at h
    next body rest hb =>
      cases h
      have hopen := Text.append_of_dropStart?_eq_some hs
      have hclose := Text.append_of_cutAt?_eq_some hb
      simp [Token.source, commentText, advance, ← hopen, ← hclose]
    next => cases h
  next =>
    split at h
    next =>
      cases h
      rfl
    next =>
      cases h
      simp [Token.source, advance, spanText_append]

theorem rest_eq_nil_of_next_eq_stop {c c' : Cursor} (h : c.next = .ok (.stop, c')) :
    c.rest = [] := by
  rw [next] at h
  split at h
  next =>
    split at h
    next => cases h
    next => cases h
  next =>
    split at h
    next hrest => exact hrest
    next => cases h

theorem next_of_rest_eq_nil {c : Cursor} (h : c.rest = []) : c.next = .ok (.stop, c) := by
  rw [next, h]
  rfl

/-- A text is read where there is no comment at the start, up to the next one. -/
theorem spanText_of_next_eq_text {c c' : Cursor} {s : String} (h : c.next = .ok (.text s, c')) :
    Text.dropStart? commentOpening c.rest = none ∧ c.rest ≠ [] ∧
      spanText .code c.rest = (s.toList, c'.rest) := by
  rw [next] at h
  split at h
  next =>
    split at h
    next => cases h
    next => cases h
  next hdrop =>
    split at h
    next => cases h
    next hne =>
      cases h
      rw [String.toList_ofList]
      exact ⟨hdrop, hne, rfl⟩

/-- The bodies of the comments in the rest of a text, up to a fault. -/
def comments (c : Cursor) : List (List Char) :=
  match h : c.next with
  | .error _ => []
  | .ok (.stop, _) => []
  | .ok (.text _, c') =>
    have := length_rest_next_lt h (by simp)
    c'.comments
  | .ok (.comment body, c') =>
    have := length_rest_next_lt h (by simp)
    body.toList :: c'.comments
termination_by c.rest.length

theorem comments_of_next_eq_text {c c' : Cursor} {s : String}
    (h : c.next = .ok (.text s, c')) : c.comments = c'.comments := by
  rw [comments]
  split <;> simp_all

theorem comments_of_next_eq_comment {c c' : Cursor} {body : String}
    (h : c.next = .ok (.comment body, c')) : c.comments = body.toList :: c'.comments := by
  rw [comments]
  split <;> simp_all

end Cursor

/-- Whether no comment in the text asks for anything. -/
def IsPlain (s : String) : Prop :=
  ∀ body ∈ (Cursor.ofText s).comments, Directive.ofBody body = .plain

theorem isPlain_of_comments_eq_nil {s : String} (h : (Cursor.ofText s).comments = []) :
    IsPlain s := by
  intro body hbody
  rw [h] at hbody
  cases hbody

namespace Lexeme

/-- The text that the lexeme was read from. -/
def source : Lexeme → List Char
  | .text s => s.toList
  | .comment body _ testValue => commentText body ++ testValue

/-- Whether the lexeme is text, or a comment that is kept as text. -/
def IsPlain : Lexeme → Prop
  | .text _ => True
  | .comment body _ testValue => Directive.ofBody body = .plain ∧ testValue = []

/-- Nothing of a text without a fault is lost. -/
theorem readAll_lossless {c : Cursor} (h : (readAll c).2 = none) :
    (readAll c).1.flatMap source = c.rest := by
  fun_induction readAll c with
  | case1 c kind hn => cases h
  | case2 c c' hn => exact (Cursor.rest_eq_nil_of_next_eq_stop hn).symm
  | case3 c s c' hn _ lexemes fault hr ih =>
      rw [hr] at ih
      rw [List.flatMap_cons, ih h]
      exact Cursor.source_append_of_next_eq_ok hn
  | case4 c body c' hn _ _ lexemes fault hr ih =>
      rw [hr] at ih
      rw [List.flatMap_cons, ih h, source, List.append_nil]
      exact Cursor.source_append_of_next_eq_ok hn
  | case5 c body c' hn _ extent _ _ lexemes fault hr ih =>
      rw [hr] at ih
      have htest : (c'.testValue extent).1 ++ (c'.testValue extent).2.rest = c'.rest :=
        testValue_append extent c'.rest
      rw [List.flatMap_cons, ih h, source, List.append_assoc, htest]
      exact Cursor.source_append_of_next_eq_ok hn

/-- Without directives every lexeme is kept as text. -/
theorem isPlain_of_mem_readAll {c : Cursor}
    (h : ∀ body ∈ c.comments, Directive.ofBody body = .plain) :
    ∀ l ∈ (readAll c).1, l.IsPlain := by
  fun_induction readAll c with
  | case1 => exact fun l hl => nomatch hl
  | case2 => exact fun l hl => nomatch hl
  | case3 c s c' hn _ lexemes fault hr ih =>
      rw [Cursor.comments_of_next_eq_text hn] at h
      rw [hr] at ih
      intro l hl
      rcases List.mem_cons.1 hl with rfl | hl
      · trivial
      · exact ih h l hl
  | case4 c body c' hn _ _ lexemes fault hr ih =>
      rw [Cursor.comments_of_next_eq_comment hn] at h
      rw [hr] at ih
      intro l hl
      rcases List.mem_cons.1 hl with rfl | hl
      · exact ⟨h _ List.mem_cons_self, rfl⟩
      · exact ih (fun b hb => h b (List.mem_cons_of_mem _ hb)) l hl
  | case5 c body c' hn _ extent hext =>
      -- A plain comment takes no test value.
      rw [Cursor.comments_of_next_eq_comment hn] at h
      rw [h _ List.mem_cons_self] at hext
      cases hext

end Lexeme

/-- The text nodes of lexemes that are kept as text. -/
def textNodes (ls : List Lexeme) : List Node :=
  ls.map fun l => .text (String.ofList l.source)

/-- A text in front is one node more. -/
theorem map_sequence_text (s : Source) (inLoop : Bool) (block : Option OpenBlock)
    (t : String) (ls : List Lexeme) :
    (s.sequence inLoop block (.text t :: ls)).map Sequence.nodes =
      ((s.sequence inLoop block ls).map Sequence.nodes).map (.text t :: ·) := by
  cases h : s.sequence inLoop block ls with
  | error e => simp [Source.sequence, h, bind, Except.bind, Except.map]
  | ok r =>
      simp [Source.sequence, h, bind, Except.bind, Except.map, pure, Except.pure,
        Sequence.cons]

/-- A comment that is a node of its own is one node more. -/
theorem map_sequence_node {s : Source} {inLoop : Bool} (block : Option OpenBlock)
    {p : Place} {testValue : List Char} {n : Node}
    (h : s.item inLoop p testValue = .ok (.node n)) (ls : List Lexeme) :
    (s.sequence inLoop block (.comment p.body p.start testValue :: ls)).map
        Sequence.nodes =
      ((s.sequence inLoop block ls).map Sequence.nodes).map (n :: ·) := by
  cases hr : s.sequence inLoop block ls with
  | error e => simp [Source.sequence, h, hr, bind, Except.bind, Except.map]
  | ok r =>
      simp [Source.sequence, h, hr, bind, Except.bind, Except.map, pure, Except.pure,
        Sequence.cons]

/-- Lexemes that are kept as text become text nodes, unless there is a fault. -/
theorem sequence_of_isPlain (s : Source) (inLoop : Bool) {ls : List Lexeme}
    (h : ∀ l ∈ ls, l.IsPlain) :
    (s.sequence inLoop none ls).map Sequence.nodes =
      match s.fault with
      | some kind => .error (s.fail kind [])
      | none => .ok (textNodes ls) := by
  induction ls with
  | nil =>
      unfold Source.sequence
      cases hf : s.fault with
      | some kind => simp [Except.map]
      | none => simp [Except.map, Sequence.empty, textNodes]
  | cons l ls ih =>
      have ih := ih fun k hk => h k (List.mem_cons_of_mem l hk)
      have hcons : (s.sequence inLoop none (l :: ls)).map Sequence.nodes =
          ((s.sequence inLoop none ls).map Sequence.nodes).map
            (.text (String.ofList l.source) :: ·) := by
        cases l with
        | text t =>
            rw [map_sequence_text, Lexeme.source, String.ofList_toList]
        | comment body start testValue =>
            obtain ⟨hbody, rfl⟩ := h _ List.mem_cons_self
            have hitem : s.item inLoop ⟨body, start⟩ [] =
                .ok (.node (.text (String.ofList (commentText body)))) := by
              rw [Source.item, hbody]
            rw [Lexeme.source, List.append_nil]
            exact map_sequence_node none hitem ls
      rw [hcons, ih]
      cases s.fault with
      | some kind => rfl
      | none => rfl

/-- What the lexemes of a text are read as. -/
theorem readNodes_eq_map_sequence {text : String} {lexemes : List Lexeme}
    {fault : Option ErrorKind} (h : Lexeme.readAll (.ofText text) = (lexemes, fault))
    (inLoop : Bool) :
    readNodes text inLoop =
      (Source.sequence ⟨text, fault⟩ inLoop none lexemes).map Sequence.nodes := by
  rw [readNodes, h]
  rfl

/-- Reading a plain text gives text nodes that together are the text, unless the text has
a fault. -/
theorem readNodes_of_isPlain {text : String} (h : IsPlain text) (inLoop : Bool) :
    readNodes text inLoop =
      match (Lexeme.readAll (.ofText text)).2 with
      | some kind => .error (.structural kind "" text)
      | none => .ok (textNodes (Lexeme.readAll (.ofText text)).1) := by
  rw [readNodes_eq_map_sequence rfl,
    sequence_of_isPlain _ inLoop (Lexeme.isPlain_of_mem_readAll h)]
  cases (Lexeme.readAll (.ofText text)).2 with
  | some kind => rfl
  | none => rfl

/-- Text nodes add their text as it is and nothing else. -/
theorem evaluateAll_textNodes (embedding : Variable.Embedding) (env : Environment)
    (loops : List Loop) (enabled : Bool) (ls : List Lexeme) :
    Node.evaluateAll embedding env loops enabled (textNodes ls) =
      .ofSql (String.ofList (ls.flatMap Lexeme.source)) enabled := by
  induction ls with
  | nil => rfl
  | cons l ls ih =>
      rw [textNodes, List.map_cons, Node.evaluateAll, Node.evaluate, Run.andThen]
      rw [textNodes] at ih
      simp only [Run.ofSql, ih]
      rw [List.flatMap_cons, String.ofList_append]
      simp [BoundSql.ext_iff, BoundSql.ofSql]

end SqlTemplate.Template
