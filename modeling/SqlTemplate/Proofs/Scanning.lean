import Mathlib
import SqlTemplate.Proofs.Relexing

/-!
# Scanning a text

A text is scanned by calls, each of which reads a token or a test value (`Cursor.answer`). The
cursor carries its position on from call to call. `Position.behind` counts the same position from
the whole of the text that was read, and the two agree whatever was called
(`Cursor.StandsBehind`): nothing is lost, nothing is read twice, and every token is located where it
stands. Calling for tokens until the end is the scan that reads all of them (`Cursor.Exhausts`).
-/

namespace SqlTemplate

namespace Text

/-- The text behind the last line feed. -/
def lastLine (s : List Char) : List Char :=
  s.rtakeWhile (· ≠ '\n')

/-- The place behind a text. -/
def Position.behind (s : List Char) : Position :=
  ⟨(String.ofList s).utf8ByteSize, s.count '\n' + 1, (lastLine s).length + 1⟩

theorem Position.behind_concat (s : List Char) (c : Char) :
    behind (s ++ [c]) = (behind s).step c := by
  have hsize : (String.ofList (s ++ [c])).utf8ByteSize =
      (String.ofList s).utf8ByteSize + c.utf8Size := by
    rw [String.ofList_append, String.utf8ByteSize_append]
    simp
  rw [behind, step, hsize, List.count_append, lastLine, List.rtakeWhile_concat]
  by_cases hc : c = '\n'
  · simp [behind, hc]
  · simp [behind, lastLine, hc]

/-- A position that is carried on is the position counted from the whole text. -/
theorem Position.after_start (s : List Char) : start.after s = behind s := by
  induction s using List.reverseRecOn with
  | nil => rfl
  | append_singleton s c ih => rw [after_append, ih, behind_concat, after_cons, after_nil]

theorem Position.behind_append (s t : List Char) : behind (s ++ t) = (behind s).after t := by
  rw [← after_start, after_append, after_start]

theorem isPrefix_iff_dropStart? (p s : List Char) : p <+: s ↔ dropStart? p s ≠ none := by
  constructor
  · rintro ⟨t, rfl⟩
    simp
  · intro h
    obtain ⟨t, ht⟩ := Option.ne_none_iff_exists'.1 h
    exact ⟨t, append_of_dropStart?_eq_some ht⟩

/-- A text cannot be cut at what does not stand in it. -/
theorem cutAt?_eq_none_iff {sep : List Char} (hsep : sep ≠ []) (s : List Char) :
    cutAt? sep s = none ↔ ¬ sep <:+: s := by
  induction s with
  | nil => simp [cutAt?, hsep]
  | cons c s ih =>
      rw [List.infix_cons_iff, isPrefix_iff_dropStart?, cutAt?]
      cases hdrop : dropStart? sep (c :: s) with
      | some r => simp
      | none => simp [ih]

end Text

namespace Template

open Text (Position)

/-- What can be asked of a cursor. -/
inductive Call where
  | next
  | testValue (extent : Extent)

/-- What a call gives. -/
inductive Answer where
  | token (t : Located)
  | fault (kind : ErrorKind)
  | testValue (value : List Char)

namespace Answer

/-- The text that was read for the answer. -/
def source : Answer → List Char
  | .token t => t.token.source
  | .fault _ => []
  | .testValue value => value

/-- Whether the answer is one that can be given behind a text: tokens are located behind it, only
the end of the text is an empty token, and no comment goes on behind a closing mark. -/
inductive IsBehind (before : List Char) : Answer → Prop where
  | token {t} (hstart : t.start = .behind before)
      (hstop : t.stop = .behind (before ++ t.token.source))
      (hsource : t.token ≠ .stop → t.token.source ≠ [])
      (hbody : ∀ body, t.token = .comment body → ¬ commentClosing <:+: body.toList) :
      IsBehind before (.token t)
  | fault : IsBehind before
      (.fault (.unterminatedComment (Position.behind before).line (Position.behind before).column))
  | testValue (value) : IsBehind before (.testValue value)

end Answer

namespace Cursor

/-- Answers a call. At a fault the cursor stays where it is. -/
def answer (c : Cursor) : Call → Answer × Cursor
  | .next =>
    match c.next with
    | .ok (token, c') => (.token ⟨token, c.position, c'.position⟩, c')
    | .error kind => (.fault kind, c)
  | .testValue extent => (.testValue (c.testValue extent).1, (c.testValue extent).2)

/-- Answers calls, one behind the other. -/
def answers (c : Cursor) : List Call → List Answer × Cursor
  | [] => ([], c)
  | call :: calls =>
    let (rest, last) := (c.answer call).2.answers calls
    ((c.answer call).1 :: rest, last)

/-- The cursor stands in the text, behind the given part of it. -/
structure StandsBehind (c : Cursor) (text before : List Char) : Prop where
  append_rest : before ++ c.rest = text
  position_eq : c.position = .behind before

theorem standsBehind_ofText (text : String) : (ofText text).StandsBehind text.toList [] :=
  ⟨rfl, rfl⟩

variable {c c' : Cursor} {text before : List Char}

theorem StandsBehind.advance (h : c.StandsBehind text before) {taken rest : List Char}
    (hrest : taken ++ rest = c.rest) :
    (c.advance taken rest).StandsBehind text (before ++ taken) := by
  constructor
  · rw [Cursor.advance, List.append_assoc, hrest, h.append_rest]
  · rw [Cursor.advance, h.position_eq, Position.behind_append]

theorem eq_advance_of_next_eq_ok {t : Token} (h : c.next = .ok (t, c')) :
    c' = c.advance t.source c'.rest := by
  rw [next] at h
  split at h
  next =>
    split at h
    next =>
      cases h
      rw [Token.source, String.toList_ofList]
      rfl
    next => cases h
  next =>
    split at h
    next =>
      cases h
      rfl
    next =>
      cases h
      rw [Token.source, String.toList_ofList]
      rfl

/-- The next token cannot be read if and only if it is a comment without an end. -/
theorem next_eq_error_iff {kind : ErrorKind} :
    c.next = .error kind ↔
      (∃ s, c.rest = commentOpening ++ s ∧ ¬ commentClosing <:+: s) ∧
        kind = .unterminatedComment c.position.line c.position.column := by
  have hclosing : commentClosing ≠ [] := by decide
  rw [next]
  cases hdrop : Text.dropStart? commentOpening c.rest with
  | none =>
      have hopen : ¬ ∃ s, c.rest = commentOpening ++ s ∧ ¬ commentClosing <:+: s := by
        rintro ⟨s, hs, -⟩
        rw [hs, Text.dropStart?_append] at hdrop
        cases hdrop
      simp only [hopen, false_and, iff_false]
      split
      · simp
      · simp
  | some s =>
      have hs := Text.append_of_dropStart?_eq_some hdrop
      have hopen : (∃ s, c.rest = commentOpening ++ s ∧ ¬ commentClosing <:+: s) ↔
          ¬ commentClosing <:+: s := by
        simp [← hs]
      rw [hopen, ← Text.cutAt?_eq_none_iff hclosing]
      cases hcut : Text.cutAt? commentClosing s with
      | none => simp [comment?, hcut, eq_comm]
      | some cut => simp [comment?, hcut]

theorem source_ne_nil_of_next_eq_ok {t : Token} (h : c.next = .ok (t, c')) (ht : t ≠ .stop) :
    t.source ≠ [] := by
  intro hsource
  have hrest := source_append_of_next_eq_ok h
  have hlength := length_rest_next_lt h ht
  rw [hsource, List.nil_append] at hrest
  rw [hrest] at hlength
  exact Nat.lt_irrefl _ hlength

/-- A call reads on from where the cursor stands. -/
theorem StandsBehind.answer (h : c.StandsBehind text before) (call : Call) :
    (c.answer call).1.IsBehind before ∧
      (c.answer call).2.StandsBehind text (before ++ (c.answer call).1.source) := by
  cases call with
  | testValue extent =>
      exact ⟨.testValue _, h.advance (testValue_append extent c.rest)⟩
  | next =>
      rw [Cursor.answer]
      cases hnext : c.next with
      | error kind =>
          obtain ⟨-, rfl⟩ := next_eq_error_iff.1 hnext
          rw [h.position_eq]
          refine ⟨.fault, ?_⟩
          rw [Answer.source, List.append_nil]
          exact h
      | ok r =>
          obtain ⟨t, c'⟩ := r
          have hstands : c'.StandsBehind text (before ++ t.source) := by
            rw [eq_advance_of_next_eq_ok hnext]
            exact h.advance (source_append_of_next_eq_ok hnext)
          refine ⟨.token h.position_eq hstands.position_eq ?_ ?_, hstands⟩
          · exact source_ne_nil_of_next_eq_ok hnext
          · rintro body rfl
            exact closing_not_infix_of_next_eq_comment hnext

/-- Whatever is called, the cursor reads on from call to call. -/
theorem StandsBehind.answers (h : c.StandsBehind text before) (calls : List Call) :
    (c.answers calls).2.StandsBehind text
        (before ++ (c.answers calls).1.flatMap Answer.source) ∧
      ∀ earlier a later, (c.answers calls).1 = earlier ++ a :: later →
        a.IsBehind (before ++ earlier.flatMap Answer.source) := by
  induction calls generalizing c before with
  | nil =>
      refine ⟨by simpa [Cursor.answers] using h, ?_⟩
      intro earlier a later hsplit
      simp [Cursor.answers] at hsplit
  | cons call calls ih =>
      obtain ⟨hfirst, hstands⟩ := h.answer call
      obtain ⟨hlast, hrest⟩ := ih hstands
      constructor
      · simpa [Cursor.answers] using hlast
      · intro earlier a later hsplit
        cases earlier with
        | nil =>
            obtain ⟨rfl, -⟩ := List.cons.inj hsplit
            simpa using hfirst
        | cons b earlier =>
            obtain ⟨rfl, htail⟩ := List.cons.inj hsplit
            simpa using hrest earlier a later htail

/-- The tokens are all that is left to read, up to the one end of the text, or up to a fault; the
cursor comes to a stop as it does when it is asked for one after the other. -/
inductive Exhausts (c : Cursor) : Except ErrorKind (List Located) × Cursor → Prop where
  | stop (init : List Located) {stop : Located} {last : Cursor}
      (hanswers : c.answers (List.replicate (init.length + 1) .next) =
        ((init ++ [stop]).map .token, last))
      (hinit : ∀ t ∈ init, t.token ≠ .stop) (hstop : stop.token = .stop)
      (hrest : last.rest = []) : Exhausts c (.ok (init ++ [stop]), last)
  | fault (init : List Located) {kind : ErrorKind} {last : Cursor}
      (hanswers : c.answers (List.replicate (init.length + 1) .next) =
        (init.map .token ++ [.fault kind], last))
      (hinit : ∀ t ∈ init, t.token ≠ .stop) (hlast : last.next = .error kind) :
      Exhausts c (.error kind, last)

theorem Exhausts.cons {t : Token} {r : Except ErrorKind (List Located)} {last : Cursor}
    (hnext : c.next = .ok (t, c')) (ht : t ≠ .stop) (h : c'.Exhausts (r, last)) :
    c.Exhausts (r.map (⟨t, c.position, c'.position⟩ :: ·), last) := by
  have hanswer : c.answer .next = (.token ⟨t, c.position, c'.position⟩, c') := by
    rw [answer, hnext]
  cases h with
  | @stop init stop _ hanswers hinit hstop hrest =>
      refine .stop (⟨t, c.position, c'.position⟩ :: init) ?_ ?_ hstop hrest
      · rw [List.length_cons, List.replicate_succ, answers, hanswer, hanswers]
        rfl
      · exact List.forall_mem_cons.2 ⟨ht, hinit⟩
  | @fault init kind _ hanswers hinit hlast =>
      refine .fault (⟨t, c.position, c'.position⟩ :: init) ?_ ?_ hlast
      · rw [List.length_cons, List.replicate_succ, answers, hanswer, hanswers]
        rfl
      · exact List.forall_mem_cons.2 ⟨ht, hinit⟩

/-- Reading all tokens comes to an end. -/
theorem exhausts_all (c : Cursor) : c.Exhausts c.all := by
  fun_induction all c with
  | case1 c kind hnext =>
      refine .fault [] ?_ (List.forall_mem_nil _) hnext
      simp [answers, answer, hnext]
  | case2 c c' hnext located =>
      have hrest := source_append_of_next_eq_ok hnext
      rw [rest_eq_nil_of_next_eq_stop hnext] at hrest
      refine .stop [] ?_ (List.forall_mem_nil _) rfl hrest
      simp [answers, answer, hnext, located]
  | case3 c t c' hnext located ht _ tokens last hall ih =>
      rw [hall] at ih
      exact ih.cons hnext ht

/-- The end of a part of a text is between two of its characters. -/
theorem isValid_behind {text : String} {before : List Char} (h : before <+: text.toList) :
    (⟨(Position.behind before).offset⟩ : String.Pos.Raw).IsValid text := by
  obtain ⟨after, hafter⟩ := h
  refine String.Pos.Raw.isValid_iff_exists_append.2
    ⟨String.ofList before, String.ofList after, ?_, rfl⟩
  rw [← String.ofList_append, hafter, String.ofList_toList]

/-- Whatever is called, what was read and what is left make up the text, and the cursor and all
tokens are located by what was read before. A token can be read unless a comment without an end is
next, and then nothing changes; and reading all tokens comes to the end of the text or to such a
comment. -/
theorem answers_ofText (text : String) (calls : List Call) :
    let run := (ofText text).answers calls
    let read := run.1.flatMap Answer.source
    read ++ run.2.rest = text.toList ∧ run.2.position = .behind read ∧
    (∀ earlier a later, run.1 = earlier ++ a :: later →
      a.IsBehind (earlier.flatMap Answer.source)) ∧
    (∀ t, .token t ∈ run.1 → (⟨t.start.offset⟩ : String.Pos.Raw).IsValid text ∧
      (⟨t.stop.offset⟩ : String.Pos.Raw).IsValid text) ∧
    (∀ kind, (run.2.answer .next).1 = .fault kind ↔
      (∃ s, run.2.rest = commentOpening ++ s ∧ ¬ commentClosing <:+: s) ∧
        kind = .unterminatedComment run.2.position.line run.2.position.column) ∧
    (∀ kind, (run.2.answer .next).1 = .fault kind → (run.2.answer .next).2 = run.2) ∧
    run.2.Exhausts run.2.all := by
  intro run read
  obtain ⟨hstands, hanswers⟩ := (standsBehind_ofText text).answers calls
  rw [List.nil_append] at hstands
  simp only [List.nil_append] at hanswers
  refine ⟨hstands.append_rest, hstands.position_eq, hanswers, ?_, ?_, ?_, exhausts_all run.2⟩
  · intro t ht
    obtain ⟨earlier, later, hsplit⟩ := List.append_of_mem ht
    have hread : earlier.flatMap Answer.source ++ t.token.source <+: text.toList := by
      have hall : run.1.flatMap Answer.source ++ run.2.rest = text.toList := hstands.append_rest
      refine ⟨later.flatMap Answer.source ++ run.2.rest, ?_⟩
      rw [← hall, hsplit]
      simp [Answer.source]
    cases hanswers earlier _ later hsplit with
    | token hstart hstop =>
        rw [hstart, hstop]
        exact ⟨isValid_behind ((List.prefix_append _ _).trans hread), isValid_behind hread⟩
  · intro kind
    rw [← next_eq_error_iff, answer]
    cases run.2.next with
    | error kind' => simp
    | ok r => simp
  · intro kind
    rw [answer]
    cases run.2.next with
    | error kind' => exact fun _ => rfl
    | ok r => exact fun h => nomatch h

/-- Behind a line feed, a comment and its test value a text stands in the second line, and the
comment behind it has no end. -/
theorem answers_ofText_unterminated :
    let calls : List Call := [.next, .next, .testValue .full, .next, .next]
    let tail : Located := ⟨.text " b", ⟨11, 2, 9⟩, ⟨13, 2, 11⟩⟩
    let run := (ofText "é\n/*p*/'x' b/*").answers calls
    run.1 = [.token ⟨.text "é\n", .start, ⟨3, 2, 1⟩⟩,
      .token ⟨.comment "p", ⟨3, 2, 1⟩, ⟨8, 2, 6⟩⟩, .testValue "'x'".toList, .token tail,
      .fault (.unterminatedComment 2 11)] ∧
    Answer.IsBehind "é\n/*p*/'x'".toList (.token tail) ∧
    ((⟨11⟩ : String.Pos.Raw).IsValid "é\n/*p*/'x' b/*" ∧
      (⟨13⟩ : String.Pos.Raw).IsValid "é\n/*p*/'x' b/*") ∧
    (run.2.answer .next).1 = .fault (.unterminatedComment 2 11) ∧
    (run.2.answer .next).2 = run.2 := by
  intro calls tail run
  have hrun : run.1 = [.token ⟨.text "é\n", .start, ⟨3, 2, 1⟩⟩,
      .token ⟨.comment "p", ⟨3, 2, 1⟩, ⟨8, 2, 6⟩⟩, .testValue "'x'".toList, .token tail,
      .fault (.unterminatedComment 2 11)] := by cbv
  have hfault : (run.2.answer .next).1 = .fault (.unterminatedComment 2 11) := by cbv
  obtain ⟨-, -, hbehind, hvalid, -, hstays, -⟩ := answers_ofText "é\n/*p*/'x' b/*" calls
  have htail : .token tail ∈ run.1 := by
    rw [hrun]
    simp
  refine ⟨hrun, ?_, hvalid tail htail, hfault, hstays _ hfault⟩
  exact hbehind [_, _, _] (.token tail) [_] hrun

end Cursor

end Template

end SqlTemplate
