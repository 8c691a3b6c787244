import Mathlib
import SqlTemplate.Proofs.Quoting
import SqlTemplate.Proofs.TermTexts

/-!
# Accepted conditions

By the grammar a clause is one term or two with one operator between them, and a string is one
literal. A clause is cut at its first operator, and what stands behind it is read as one term
without looking for a second one. So a little more is accepted (`Term.IsLoose`): a text from the
opening mark of a literal to the closing mark of another is read as a string, and an index may hold
an operator. Nothing else is: a clause follows the grammar if none of its terms is read so, and only
then (`Condition.follows_grammar_iff`).
-/

namespace SqlTemplate

open Condition (Blank Mark Marked chars visibleChars literalMarks markLiterals plainMarks)
open Text (double quote quoteMark trim)

/-- Two literals with something between them are not one. -/
theorem Text.quote_append_ne {c : Char} (hc : c ≠ quoteMark) (a mid b s : List Char) :
    quote a ++ c :: mid ++ quote b ≠ quote s := by
  intro h
  have hbehind : (c :: (mid ++ quote b)).head? ≠ some quoteMark :=
    fun h => hc (Option.some.inj h)
  have hnil : ([] : List Char).head? ≠ some quoteMark := fun h => nomatch h
  have heq : double a ++ quoteMark :: (c :: (mid ++ quote b)) = double s ++ quoteMark :: [] := by
    simpa [quote] using h
  have htail := congrArg literalTail heq
  rw [literalTail_double_append hbehind, literalTail_double_append hnil] at htail
  cases congrArg Prod.snd htail

namespace Clause

variable {ms left right : List Mark} {operator : Operator}

theorem length_lt_of_cutAtOperator?_eq_some
    (h : cutAtOperator? ms = some (left, operator, right)) : right.length < ms.length := by
  obtain ⟨mid, rfl, hmid, -⟩ := eq_append_of_cutAtOperator?_eq_some h
  have hlength : 0 < mid.length := by
    rw [← List.length_map Mark.visible, ← visibleChars, hmid]
    cases operator <;> decide
  simp only [List.length_append]
  omega

/-- The operators of a clause outside of its literals, from the first on. -/
def operators (ms : List Mark) : List Operator :=
  match _hcut : cutAtOperator? ms with
  | none => []
  | some (_, operator, right) => operator :: operators right
termination_by ms.length
decreasing_by exact length_lt_of_cutAtOperator?_eq_some _hcut

theorem operators_of_eq_none (h : cutAtOperator? ms = none) : operators ms = [] := by
  rw [operators]
  split
  next => rfl
  next hcut => cases h.symm.trans hcut

theorem operators_of_eq_some (h : cutAtOperator? ms = some (left, operator, right)) :
    operators ms = operator :: operators right := by
  rw [operators]
  split
  next hcut => cases h.symm.trans hcut
  next hcut =>
    cases h.symm.trans hcut
    rfl

theorem operators_of_forall (h : ∀ m ∈ ms, m.visible ∉ Operator.starts) : operators ms = [] :=
  operators_of_eq_none (cutAtOperator?_of_forall h)

/-- The marks behind that of a negation, if there is one. -/
def dropNegation : List Mark → List Mark
  | [] => []
  | m :: ms => if m.char = '!' then ms else m :: ms

/-- The marks that the terms of a clause are read from. -/
def termMarks (ms : List Mark) : List (List Mark) :=
  match cutAtOperator? ms with
  | some (left, _, right) => [left, right]
  | none => [dropNegation ms]

end Clause

/-- More than a term by the grammar: a string from the opening mark of a literal to the closing mark
of another one, or a path with an operator in an index. -/
inductive Term.IsLoose : Term → List Mark → Prop where
  | string {s : String} {ms : List Mark} {a mid b : List Char} {c : Char} (hc : c ≠ quoteMark)
      (htext : trim (chars ms) = quote a ++ c :: mid ++ quote b) : IsLoose (.string s) ms
  | path {p : Path} {ms : List Mark} {raw : String} {c : Char}
      (hoperators : Clause.operators ms ≠ []) (hraw : .index raw ∈ p.segments)
      (hmem : c ∈ raw.toList) (hc : c ∈ Operator.starts) : IsLoose (.path p) ms

namespace Term

variable {ms : List Mark} {t : Term}

/-- As the grammar has it: a string is one literal, and no operator stands in a term. -/
structure IsStrict (t : Term) (ms : List Mark) : Prop where
  literal : ∀ s, t = .string s → trim (chars ms) = quote s.toList
  operators : Clause.operators ms = []

theorem IsLoose.not_isStrict (h : t.IsLoose ms) : ¬ t.IsStrict ms := by
  intro hstrict
  cases h with
  | string hc htext =>
      exact Text.quote_append_ne hc _ _ _ _ (htext.symm.trans (hstrict.literal _ rfl))
  | path hoperators => exact hoperators hstrict.operators

section Reading

variable {before inner after : List Mark}

theorem operators_of_blank (hbefore : Blank before) (hafter : Blank after)
    (h : ∀ m ∈ inner, m.visible ∉ Operator.starts) :
    Clause.operators (before ++ inner ++ after) = [] := by
  refine Clause.operators_of_forall ?_
  rw [List.forall_mem_append, List.forall_mem_append]
  exact ⟨⟨hbefore.not_mem_starts, h⟩, hafter.not_mem_starts⟩

theorem visible_not_mem_starts (h : ∀ c ∈ chars ms, c ∉ Operator.starts) :
    ∀ m ∈ ms, m.visible ∉ Operator.starts := by
  intro m hm
  rw [Mark.visible]
  split
  next => decide
  next => exact h m.char (List.mem_map_of_mem hm)

/-- A text from one quote mark to another is read as a string. -/
theorem isStrict_or_isLoose_of_ofQuoted {content : List Char} (hbefore : Blank before)
    (hafter : Blank after) (hinner : Marked inner)
    (hchars : chars inner = trim (chars (before ++ inner ++ after)))
    (htext : chars inner = quoteMark :: (content ++ [quoteMark])) :
    (string (String.ofList (Text.undouble content))).IsStrict (before ++ inner ++ after) ∨
      (string (String.ofList (Text.undouble content))).IsLoose (before ++ inner ++ after) := by
  rcases hinner.exists_literal htext with ⟨a, rfl⟩ | ⟨a, m, mid, b, hm, rfl⟩
  · have hcontent : content = double a := by
      have hquote : quote a = quoteMark :: (content ++ [quoteMark]) := by
        rw [← htext, Condition.chars_literalMarks]
      exact (List.append_cancel_right (List.cons.inj hquote).2).symm
    refine .inl ⟨?_, operators_of_blank hbefore hafter fun m hm => ?_⟩
    · rintro s ⟨⟩
      rw [← hchars, Condition.chars_literalMarks, hcontent, Text.undouble_double,
        String.toList_ofList]
    · rcases Condition.visible_of_mem_literalMarks hm with h | h <;> rw [h] <;> decide
  · have hquotes : trim (chars (before ++ (literalMarks a ++ m :: mid ++ literalMarks b) ++
        after)) = quote a ++ m.char :: chars mid ++ quote b := by
      rw [← hchars]
      simp
    exact .inr (.string hm hquotes)

/-- What starts with no quote mark holds no operator, but for an index. -/
theorem isStrict_or_isLoose_of_ofUnquoted (hbefore : Blank before) (hafter : Blank after)
    (h : ofUnquoted (chars inner) = .ok t) :
    t.IsStrict (before ++ inner ++ after) ∨ t.IsLoose (before ++ inner ++ after) := by
  obtain ⟨hstring, hpath⟩ := path_of_ofUnquoted_eq_ok h
  by_cases hoperators : Clause.operators (before ++ inner ++ after) = []
  · exact .inl ⟨fun s hs => absurd hs (hstring s), hoperators⟩
  · obtain ⟨c, hmem, hc⟩ : ∃ c ∈ chars inner, c ∈ Operator.starts := by
      by_contra hnone
      refine hoperators (operators_of_blank hbefore hafter (visible_not_mem_starts ?_))
      exact fun c hmem hc => hnone ⟨c, hmem, hc⟩
    rcases hpath with hnone | ⟨p, rfl, hread⟩
    · exact absurd hc (hnone c hmem)
    · obtain ⟨raw, hraw, hmem⟩ := Path.exists_index_of_mem_starts hread hmem hc
      exact .inr (.path hoperators hraw hmem hc)

/-- Nothing but strings of several literals and indices with operators is more than a term. -/
theorem isStrict_or_isLoose (hms : Marked ms) (h : ofText (chars ms) = .ok t) :
    t.IsStrict ms ∨ t.IsLoose ms := by
  obtain ⟨before, inner, after, rfl, hinner, hchars, hbefore, hafter⟩ := hms.exists_trim
  rw [ofText, ← hchars] at h
  split at h
  next => cases h
  next c rest htext =>
    split at h
    next word hword =>
      cases h
      refine .inl ⟨fun s hs => absurd hs (ne_string_of_ofWord?_eq_some hword s), ?_⟩
      exact operators_of_blank hbefore hafter
        (visible_not_mem_starts (not_mem_starts_of_ofWord?_eq_some hword))
    next =>
      split at h
      next hquote =>
        rw [ofQuoted] at h
        split at h
        next content hcontent =>
          cases h
          refine isStrict_or_isLoose_of_ofQuoted hbefore hafter hinner hchars ?_
          rw [htext, hquote, Text.append_of_dropEnd?_eq_some hcontent]
        next => cases h
      next => exact isStrict_or_isLoose_of_ofUnquoted hbefore hafter h

end Reading

end Term

namespace Clause

variable {ms left right : List Mark} {operator : Operator} {k : ClauseKind} {c : Clause}

theorem marked_of_cutAtOperator?_eq_some (hms : Marked ms)
    (h : cutAtOperator? ms = some (left, operator, right)) : Marked left ∧ Marked right := by
  obtain ⟨mid, rfl, hmid, -⟩ := eq_append_of_cutAtOperator?_eq_some h
  have hchars : ∀ c ∈ operator.symbol.toList, c ≠ '_' ∧ c ≠ quoteMark := by
    intro c hc
    cases operator <;> fin_cases hc <;> decide
  have hplain : ∀ m ∈ mid, m.content = false ∧ m.char ≠ quoteMark := by
    intro m hm
    have hvisible : m.visible ∈ operator.symbol.toList := by
      rw [← hmid]
      exact List.mem_map_of_mem hm
    obtain ⟨hcontent, hchar⟩ := Condition.char_eq_of_visible_eq (hchars _ hvisible).1 rfl
    exact ⟨hcontent, hchar ▸ (hchars _ hvisible).2⟩
  -- The operator has a first character, and the clause is cut there.
  cases mid with
  | nil => cases operator <;> cases hmid
  | cons m mid =>
      rw [List.forall_mem_cons] at hplain
      rw [List.append_assoc, List.cons_append] at hms
      obtain ⟨hleft, hrest⟩ := hms.of_append_cons hplain.1.1 hplain.1.2
      exact ⟨hleft, hrest.of_append hplain.2⟩

theorem cutAtOperator?_dropNegation (h : cutAtOperator? ms = none) :
    cutAtOperator? (dropNegation ms) = none := by
  cases ms with
  | nil => rfl
  | cons m ms =>
      rw [dropNegation]
      split
      next =>
        rw [cutAtOperator?] at h
        split at h
        next => cases h
        next => exact Option.map_eq_none_iff.1 h
      next => exact h

/-- A clause of one term is read from what stands behind its negation. -/
theorem standalone_of_standaloneOfText (hms : Marked ms)
    (h : standaloneOfText (chars ms) = .ok k) :
    ∃ negated t, k = .standalone negated t ∧ Marked (dropNegation ms) ∧
      Term.ofText (chars (dropNegation ms)) = .ok t := by
  cases ms with
  | nil => cases h
  | cons m ms =>
      rw [dropNegation]
      split
      next hm =>
        have h : (Term.ofText (chars ms)).map (.standalone true) = .ok k := by
          rwa [Condition.chars_cons, hm] at h
        obtain ⟨t, ht, rfl⟩ := Except.map_eq_ok_iff.1 h
        refine ⟨true, t, rfl, ?_, ht⟩
        cases hms with
        | plain _ hrest => exact hrest
        | literal => cases hm
      next hm =>
        rw [standaloneOfText] at h
        · obtain ⟨t, ht, rfl⟩ := Except.map_eq_ok_iff.1 h
          exact ⟨false, t, rfl, hms, ht⟩
        · exact fun r heq => hm (List.cons.inj heq).1

/-- The terms of a clause are read from its parts, which are marked as they would be on their
own. -/
theorem forall₂_terms (hms : Marked ms) (htrim : trim (chars ms) = chars ms)
    (h : kindOfMarks ms = .ok c.kind) :
    List.Forall₂ (fun t part => Marked part ∧ Term.ofText (chars part) = .ok t) c.terms
      (termMarks ms) := by
  rw [kindOfMarks] at h
  rw [termMarks]
  cases hcut : cutAtOperator? ms with
  | some cut =>
      obtain ⟨left, operator, right⟩ := cut
      obtain ⟨hleft, hright⟩ := marked_of_cutAtOperator?_eq_some hms hcut
      rw [hcut] at h
      obtain ⟨a, ha, h⟩ := Except.bind_eq_ok_iff.1 h
      obtain ⟨b, hb, h⟩ := Except.bind_eq_ok_iff.1 h
      have hterms : c.terms = [a, b] := by
        rw [terms, ← Except.ok.inj h]
      rw [hterms]
      exact .cons ⟨hleft, ha⟩ (.cons ⟨hright, hb⟩ .nil)
  | none =>
      rw [hcut] at h
      dsimp only at h ⊢
      rw [htrim] at h
      obtain ⟨negated, t, hkind, hmarked, ht⟩ := standalone_of_standaloneOfText hms h
      have hterms : c.terms = [t] := by
        rw [terms, hkind]
      rw [hterms]
      exact .cons ⟨hmarked, ht⟩ .nil

/-- A clause has at most one operator if none is left in its parts. -/
theorem length_operators_le_one_iff (ms : List Mark) :
    (operators ms).length ≤ 1 ↔ ∀ part ∈ termMarks ms, operators part = [] := by
  rw [termMarks]
  cases hcut : cutAtOperator? ms with
  | some cut =>
      obtain ⟨left, operator, right⟩ := cut
      obtain ⟨-, -, -, hleft⟩ := eq_append_of_cutAtOperator?_eq_some hcut
      rw [operators_of_eq_some hcut, List.length_cons, List.forall_mem_cons,
        List.forall_mem_singleton, Nat.add_le_add_iff_right, Nat.le_zero, List.length_eq_zero_iff]
      exact ⟨fun h => ⟨operators_of_eq_none hleft, h⟩, fun h => h.2⟩
  | none =>
      rw [operators_of_eq_none hcut]
      refine ⟨fun _ => ?_, fun _ => Nat.zero_le 1⟩
      exact List.forall_mem_singleton.2 (operators_of_eq_none (cutAtOperator?_dropNegation hcut))

end Clause

namespace Condition

/-- Each clause is read from its own text. -/
theorem exists_marked_of_ofText_eq_ok {s : List Char} {condition : Condition}
    (h : ofText s = .ok condition) {c : Clause} (hc : c ∈ condition.clauses) :
    ∃ ms, Marked ms ∧ chars ms = c.source.toList ∧ trim (chars ms) = chars ms ∧
      Clause.kindOfMarks ms = .ok c.kind := by
  obtain ⟨-, ms, hms, -, clauses, hclauses, rfl⟩ := ofText_eq_ok_iff.1 h
  obtain ⟨part, hpart, hofMarks⟩ := Except.exists_mem_of_mapM_eq_ok hclauses hc
  obtain ⟨hsource, hkind⟩ := Clause.ofMarks_eq_ok_iff.1 hofMarks
  have hmark : (joint ms).mark ≠ '_' ∧ (joint ms).mark ≠ quoteMark := by
    cases joint ms <;> decide
  have hmarked : Marked part := (splits_splitAtTwice (joint ms).mark ms).marked hmark.1 hmark.2
    (markLiterals_eq_ok_iff.1 hms).1 part hpart
  obtain ⟨before, inner, after, rfl, hinner, hchars, hbefore, hafter⟩ := hmarked.exists_trim
  have htrim : trim (chars inner) = chars inner := by rw [hchars, Text.trim_trim]
  rw [Clause.kindOfMarks_append_blank hbefore hafter] at hkind
  refine ⟨inner, hinner, ?_, htrim, hkind⟩
  rw [hsource, String.toList_ofList, hchars]

/-- A clause of an accepted condition has at most one operator, and each of its strings is read from
one literal, if and only if none of its terms is more than a term by the grammar. -/
theorem follows_grammar_iff {s : List Char} {condition : Condition} (h : ofText s = .ok condition)
    {c : Clause} (hc : c ∈ condition.clauses) :
    ∃ ms, markLiterals c.source.toList = .ok ms ∧
      List.Forall₂ (fun t part => Term.ofText (chars part) = .ok t) c.terms
        (Clause.termMarks ms) ∧
      ((Clause.operators ms).length ≤ 1 ∧
        (∀ s part, (Term.string s, part) ∈ c.terms.zip (Clause.termMarks ms) →
          trim (chars part) = quote s.toList) ↔
        ∀ t part, (t, part) ∈ c.terms.zip (Clause.termMarks ms) → ¬ t.IsLoose part) := by
  obtain ⟨ms, hms, hsource, htrim, hkind⟩ := exists_marked_of_ofText_eq_ok h hc
  have hterms := Clause.forall₂_terms hms htrim hkind
  obtain ⟨hlength, hread⟩ := List.forall₂_iff_zip.1 hterms
  refine ⟨ms, markLiterals_eq_ok_iff.2 ⟨hms, hsource⟩, hterms.imp fun _ _ h => h.2, ?_⟩
  rw [Clause.length_operators_le_one_iff]
  constructor
  · rintro ⟨hoperators, hliterals⟩ t part hmem hloose
    refine hloose.not_isStrict ⟨?_, hoperators part (List.of_mem_zip hmem).2⟩
    rintro s rfl
    exact hliterals s part hmem
  · intro hnone
    have hstrict : ∀ t part, (t, part) ∈ c.terms.zip (Clause.termMarks ms) → t.IsStrict part := by
      intro t part hmem
      obtain ⟨hmarked, hofText⟩ := hread hmem
      exact (Term.isStrict_or_isLoose hmarked hofText).resolve_right (hnone t part hmem)
    refine ⟨fun part hpart => ?_, fun s part hmem => (hstrict _ part hmem).literal s rfl⟩
    rw [← List.map_snd_zip (Nat.le_of_eq hlength.symm), List.mem_map] at hpart
    obtain ⟨⟨t, part⟩, hmem, rfl⟩ := hpart
    exact (hstrict t part hmem).operators

theorem follows_grammar_iff_of_literal :
    ∃ c ms, ofText "p == 'a == b'".toList = .ok ⟨"p == 'a == b'", .and, [c]⟩ ∧
      c.terms = [.path ⟨.argument "p", []⟩, .string "a == b"] ∧
      markLiterals c.source.toList = .ok ms ∧
      List.Forall₂ (fun t part => Term.ofText (chars part) = .ok t) c.terms
        (Clause.termMarks ms) ∧
      ((Clause.operators ms).length ≤ 1 ∧
        (∀ s part, (Term.string s, part) ∈ c.terms.zip (Clause.termMarks ms) →
          trim (chars part) = quote s.toList) ↔
        ∀ t part, (t, part) ∈ c.terms.zip (Clause.termMarks ms) → ¬ t.IsLoose part) := by
  have hread : ofText "p == 'a == b'".toList = .ok ⟨"p == 'a == b'", .and,
      [⟨"p == 'a == b'", .comparison (.path ⟨.argument "p", []⟩) .eq (.string "a == b")⟩]⟩ := rfl
  obtain ⟨ms, h⟩ := follows_grammar_iff hread (List.mem_singleton_self _)
  exact ⟨_, ms, hread, rfl, h⟩

/-- A comparison of two literals with each other is read as a string. -/
theorem not_forall_follows_grammar :
    ¬ ∀ (s : List Char) (condition : Condition), ofText s = .ok condition →
      ∀ c ∈ condition.clauses, ∃ ms, markLiterals c.source.toList = .ok ms ∧
        (Clause.operators ms).length ≤ 1 ∧
        ∀ s part, (Term.string s, part) ∈ c.terms.zip (Clause.termMarks ms) →
          trim (chars part) = quote s.toList := by
  intro h
  have hread : ofText "p == 'a' == 'b'".toList = .ok ⟨"p == 'a' == 'b'", .and,
      [⟨"p == 'a' == 'b'",
        .comparison (.path ⟨.argument "p", []⟩) .eq (.string "a' == 'b")⟩]⟩ := rfl
  obtain ⟨ms, hms, hlength, -⟩ := h _ _ hread _ (List.mem_singleton_self _)
  have hmarks : markLiterals "p == 'a' == 'b'".toList = .ok (plainMarks "p == ".toList ++
      literalMarks ['a'] ++ plainMarks " == ".toList ++ literalMarks ['b']) := rfl
  obtain rfl := Except.ok.inj (hmarks.symm.trans hms)
  rw [Clause.operators_of_eq_some rfl, Clause.operators_of_eq_some rfl] at hlength
  simp at hlength

end Condition

end SqlTemplate
