import Mathlib
import SqlTemplate.Proofs.CanonicalComments
import SqlTemplate.Proofs.NodeTrace
import SqlTemplate.Proofs.PlainText

/-!
# Plain SQL

A comment asks for nothing unless it is one of the words that stand alone, with or without blanks
around it, or starts like something that has an operand or names a value
(`Directive.ofBody_eq_plain_iff`). SQL in which all comments are of this kind is a template that
gives the SQL itself, whatever the arguments are (`render_of_asksNothing`).

The comments that the template is read with are the ones that a scan of the SQL finds, because a
comment that asks for nothing takes no test value (`Lexeme.fault_eq_none_of_all`).
-/

namespace SqlTemplate.Template

namespace Directive

/-- Whether the body of a comment is no word that stands alone and does not start like a directive
with an operand, an argument or a loop element. -/
def AsksNothing (body : List Char) : Prop :=
  Text.trim body ∉ keywords ∧
    ∀ c, body.head? = some c → Text.isAlphabetic c = false ∧ c ∉ ['_', '#', '$']

theorem ofKeyword?_eq_none_iff (s : List Char) :
    ofKeyword? (String.ofList s) = none ↔ s ∉ keywords := by
  constructor
  · intro h hs
    have hall : ∀ w ∈ keywords, ofKeyword? (String.ofList w) ≠ none := by decide
    exact hall s hs h
  · exact ofKeyword?_eq_none

theorem ne_plain_of_ofKeyword? {w : String} {d : Directive} (h : ofKeyword? w = some d) :
    d ≠ .plain := by
  rintro rfl
  unfold ofKeyword? at h
  split at h <;> cases h

/-- The body of a comment with an operand starts with a letter or a dollar sign. -/
theorem exists_cons_of_findSome?_openings {b : List Char} {d : Directive}
    (h : (openings.findSome? fun (start, f) => (Text.dropStart? start.toList b).map f) =
      some d) :
    d ≠ .plain ∧ ∃ c s, b = c :: s ∧ (Text.isAlphabetic c = true ∨ c = '$') := by
  obtain ⟨p, hp, e, rfl, rfl⟩ := append_of_findSome?_openings h
  simp only [openings, List.mem_cons, List.not_mem_nil, or_false] at hp
  rcases hp with rfl | rfl | rfl | rfl | rfl | rfl
  all_goals exact ⟨by simp, _, _, rfl, by decide⟩

theorem head?_ne_of_findSome?_openings {c : Char} {s : List Char}
    (h : (openings.findSome? fun (start, f) => (Text.dropStart? start.toList (c :: s)).map f) =
      none) : c ≠ '$' := by
  rintro rfl
  have hnormal : (EmbeddedMode.normal.sigil, Directive.embedded .normal) ∈ openings := by
    simp [openings]
  have hdrop := List.findSome?_eq_none_iff.1 h _ hnormal
  simp [EmbeddedMode.sigil, Text.dropStart?] at hdrop

/-- Which comments ask for nothing. -/
theorem ofBody_eq_plain_iff (body : List Char) : ofBody body = .plain ↔ AsksNothing body := by
  rw [AsksNothing, ← ofKeyword?_eq_none_iff, ofBody]
  cases hkey : ofKeyword? (String.ofList (Text.trim body)) with
  | some d => simp [ne_plain_of_ofKeyword? hkey]
  | none =>
      cases hopen : openings.findSome? fun (start, f) =>
          (Text.dropStart? start.toList body).map f with
      | some d =>
          obtain ⟨hplain, c, s, rfl, hc⟩ := exists_cons_of_findSome?_openings hopen
          rcases hc with hc | rfl
          · simp [hplain, hc]
          · simp [hplain]
      | none =>
          cases body with
          | nil => simp [namesValue]
          | cons c s =>
              have hdollar := head?_ne_of_findSome?_openings hopen
              simp [namesValue, Text.startsIdentifier, hdollar, and_assoc]

end Directive

variable {c : Cursor} {tokens : List Located} {last : Cursor}

namespace Cursor

/-- A scan that comes to the end goes on behind the first token. -/
theorem exists_all_of_next {t : Token} {c' : Cursor} (h : c.all = (.ok tokens, last))
    (hnext : c.next = .ok (t, c')) (ht : t ≠ .stop) :
    ∃ rest, c'.all = (.ok rest, last) ∧ tokens = ⟨t, c.position, c'.position⟩ :: rest := by
  rw [all] at h
  split at h
  next hfault => cases hnext.symm.trans hfault
  next hfirst =>
    cases hnext.symm.trans hfirst
    rw [dif_neg ht] at h
    obtain ⟨hmap, hlast⟩ := Prod.mk.inj h
    obtain ⟨rest, hrest, rfl⟩ := Except.map_eq_ok_iff.1 hmap
    exact ⟨rest, Prod.ext hrest hlast, rfl⟩

/-- A scan that comes to the end finds all comments. -/
theorem exists_mem_of_mem_comments (h : c.all = (.ok tokens, last)) {body : List Char}
    (hbody : body ∈ c.comments) : ∃ t ∈ tokens, t.token = .comment (String.ofList body) := by
  fun_induction comments c generalizing tokens with
  | case1 => cases hbody
  | case2 => cases hbody
  | case3 c s c' hnext _ ih =>
      obtain ⟨rest, hall, rfl⟩ := exists_all_of_next h hnext (by simp)
      obtain ⟨t, ht, hcomment⟩ := ih hall hbody
      exact ⟨t, List.mem_cons_of_mem _ ht, hcomment⟩
  | case4 c first c' hnext _ ih =>
      obtain ⟨rest, hall, rfl⟩ := exists_all_of_next h hnext (by simp)
      rcases List.mem_cons.1 hbody with rfl | hbody
      · exact ⟨_, List.mem_cons_self, by rw [String.ofList_toList]⟩
      · obtain ⟨t, ht, hcomment⟩ := ih hall hbody
        exact ⟨t, List.mem_cons_of_mem _ ht, hcomment⟩

end Cursor

/-- Where no comment takes a test value the text is read to the end if a scan comes to it. -/
theorem Lexeme.fault_eq_none_of_all (h : c.all = (.ok tokens, last))
    (hplain : ∀ body ∈ c.comments, Directive.ofBody body = .plain) : (readAll c).2 = none := by
  fun_induction readAll c generalizing tokens with
  | case1 c kind hnext =>
      rw [Cursor.all] at h
      split at h
      next => cases h
      next hfirst => cases hnext.symm.trans hfirst
  | case2 => rfl
  | case3 c s c' hnext _ lexemes fault hread ih =>
      obtain ⟨rest, hall, -⟩ := Cursor.exists_all_of_next h hnext (by simp)
      rw [Cursor.comments_of_next_eq_text hnext] at hplain
      rw [hread] at ih
      exact ih hall hplain
  | case4 c body c' hnext _ hextent lexemes fault hread ih =>
      obtain ⟨rest, hall, -⟩ := Cursor.exists_all_of_next h hnext (by simp)
      rw [Cursor.comments_of_next_eq_comment hnext, List.forall_mem_cons] at hplain
      rw [hread] at ih
      exact ih hall hplain.2
  | case5 c body c' hnext _ extent hextent =>
      rw [Cursor.comments_of_next_eq_comment hnext, List.forall_mem_cons] at hplain
      rw [hplain.1] at hextent
      cases hextent

/-- The nodes of a plain text without a fault add the text. -/
theorem evaluate_textNodes {source : String}
    (hfault : (Lexeme.readAll (.ofText source)).2 = none) (arguments : Arguments)
    (config : Config) :
    evaluate ⟨source, textNodes (Lexeme.readAll (.ofText source)).1⟩ arguments config =
      .ok (.ofSql source) := by
  have hsource : (Lexeme.readAll (.ofText source)).1.flatMap Lexeme.source = source.toList :=
    Lexeme.readAll_lossless hfault
  rw [evaluate, evaluateNodes, evaluateWithin_eq_evaluateAll, evaluateAll_textNodes, hsource,
    String.ofList_toList]
  rfl

/-- SQL in which no comment asks for anything is given as it is. -/
theorem render_of_asksNothing {source : String} {tokens : List Located} {last : Cursor}
    (hscan : (Cursor.ofText source).all = (.ok tokens, last))
    (hcomments : ∀ t ∈ tokens, ∀ body, t.token = .comment body →
      Directive.AsksNothing body.toList) (arguments : Arguments) (config : Config) :
    render source arguments config = .ok ⟨source, [], []⟩ := by
  have hplain : IsPlain source := by
    intro body hbody
    obtain ⟨t, ht, hcomment⟩ := Cursor.exists_mem_of_mem_comments hscan hbody
    have hasks := hcomments t ht _ hcomment
    rw [String.toList_ofList] at hasks
    exact (Directive.ofBody_eq_plain_iff body).2 hasks
  have hfault := Lexeme.fault_eq_none_of_all hscan hplain
  have hread := readNodes_of_isPlain hplain false
  rw [hfault] at hread
  rw [render, ofText, hread]
  exact evaluate_textNodes hfault arguments config

/-- A hint and a word with more behind it ask for nothing, and a comment mark in a literal or in a
line comment is none. -/
theorem render_of_asksNothing_hint :
    let source := "a/*+ X */ '/*p*/' --'/*q*/\n/* END of it */ 'x"
    let tokens : List Located :=
      [⟨.text "a", ⟨0, 1, 1⟩, ⟨1, 1, 2⟩⟩, ⟨.comment "+ X ", ⟨1, 1, 2⟩, ⟨9, 1, 10⟩⟩,
        ⟨.text " '/*p*/' --'/*q*/\n", ⟨9, 1, 10⟩, ⟨27, 2, 1⟩⟩,
        ⟨.comment " END of it ", ⟨27, 2, 1⟩, ⟨42, 2, 16⟩⟩,
        ⟨.text " 'x", ⟨42, 2, 16⟩, ⟨45, 2, 19⟩⟩, ⟨.stop, ⟨45, 2, 19⟩, ⟨45, 2, 19⟩⟩]
    (Cursor.ofText source).all = (.ok tokens, ⟨[], ⟨45, 2, 19⟩⟩) ∧
      (∀ t ∈ tokens, ∀ body, t.token = .comment body → Directive.AsksNothing body.toList) ∧
      render source .empty {} = .ok ⟨source, [], []⟩ := by
  intro source tokens
  have hscan : (Cursor.ofText source).all = (.ok tokens, ⟨[], ⟨45, 2, 19⟩⟩) := by cbv
  have hhint : Directive.AsksNothing "+ X ".toList :=
    (Directive.ofBody_eq_plain_iff _).1 (by decide)
  have hword : Directive.AsksNothing " END of it ".toList :=
    (Directive.ofBody_eq_plain_iff _).1 (by decide)
  have hcomments : ∀ t ∈ tokens, ∀ body, t.token = .comment body →
      Directive.AsksNothing body.toList := by
    simpa [tokens] using ⟨hhint, hword⟩
  exact ⟨hscan, hcomments, render_of_asksNothing hscan hcomments .empty {}⟩

end SqlTemplate.Template
