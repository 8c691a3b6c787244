import Mathlib
import SqlTemplate.Proofs.Marks

/-!
# Clauses of conditions

A condition is read in steps: its text is marked, checked and cut into clauses, and each clause is
read by itself (`Condition.ofText_eq_ok_iff`). The marked text is cut where the connective stands
(`Condition.splits_splitAtTwice`), so the text of a clause stands in that of the condition
(`Condition.isInfix_source_of_ofText_eq_ok`), and each clause is a marked text of its own
(`Condition.Splits.marked`). A clause is cut at its first operator
(`Clause.eq_append_of_cutAtOperator?_eq_some`).
-/

namespace SqlTemplate

open Text (quoteMark trim)

namespace Condition

section Cutting

variable {c : Char} {m n : Mark} {ms ns part : List Mark} {parts : List (List Mark)}

/-- The parts of a text between places where the given visible character stands twice. -/
inductive Splits (c : Char) : List Mark → List (List Mark) → Prop where
  | last (ms : List Mark) : Splits c ms [ms]
  | cons {ms : List Mark} {m n : Mark} {ns : List Mark} {parts : List (List Mark)}
      (hm : m.visible = c) (hn : n.visible = c) (hrest : Splits c ns parts) :
      Splits c (ms ++ m :: n :: ns) (ms :: parts)

theorem Splits.cons_head (h : Splits c ms (part :: parts)) (m : Mark) :
    Splits c (m :: ms) ((m :: part) :: parts) := by
  cases h with
  | last => exact .last _
  | @cons ms k n ns parts hk hn hrest =>
      rw [← List.cons_append]
      exact .cons hk hn hrest

theorem Splits.ne_nil (h : Splits c ms parts) : parts ≠ [] := by
  cases h with
  | last => exact List.cons_ne_nil _ _
  | cons => exact List.cons_ne_nil _ _

theorem splits_splitAtTwice (c : Char) (ms : List Mark) : Splits c ms (splitAtTwice c ms) := by
  fun_induction splitAtTwice c ms with
  | case1 => exact .last []
  | case2 m => exact .last [m]
  | case3 m n ms htwice ih =>
      rw [← List.nil_append (m :: n :: ms)]
      exact .cons htwice.1 htwice.2 ih
  | case4 m n ms _ hnil ih =>
      exact absurd hnil ih.ne_nil
  | case5 m n ms _ first rest hcons ih =>
      rw [hcons] at ih
      exact ih.cons_head m

theorem Splits.isInfix (h : Splits c ms parts) : ∀ part ∈ parts, part <:+: ms := by
  induction h with
  | last ms => exact List.forall_mem_singleton.2 List.infix_rfl
  | @cons ms m n ns parts _ _ _ ih =>
      refine List.forall_mem_cons.2 ⟨(List.prefix_append _ _).isInfix, ?_⟩
      have hns : ns <:+ ms ++ m :: n :: ns := ⟨ms ++ [m, n], by simp⟩
      exact fun part hpart => (ih part hpart).trans hns.isInfix

theorem char_eq_of_visible_eq (hc : c ≠ '_') (hm : m.visible = c) :
    m.content = false ∧ m.char = c := by
  rw [Mark.visible] at hm
  split at hm
  next => exact absurd hm.symm hc
  next hcontent => exact ⟨Bool.eq_false_iff.2 hcontent, hm⟩

theorem chars_eq_of_visibleChars_eq {s : List Char} (h : visibleChars ms = s) (hs : '_' ∉ s) :
    chars ms = s := by
  subst h
  refine List.map_congr_left fun m hm => ?_
  have hne : m.visible ≠ '_' := fun heq => hs (heq ▸ List.mem_map_of_mem hm)
  exact (char_eq_of_visible_eq hne rfl).2

/-- Where the visible character is one that is looked for, it stands outside of literals, and the
parts are marked as they would be on their own. -/
theorem Splits.marked (h : Splits c ms parts) (hc : c ≠ '_') (hquote : c ≠ quoteMark)
    (hms : Marked ms) : ∀ part ∈ parts, Marked part := by
  induction h with
  | last ms => exact List.forall_mem_singleton.2 hms
  | @cons ms m n ns parts hm hn _ ih =>
      obtain ⟨hcontent, hchar⟩ := char_eq_of_visible_eq hc hm
      obtain ⟨hcontent', hchar'⟩ := char_eq_of_visible_eq hc hn
      obtain ⟨hfirst, hrest⟩ := hms.of_append_cons hcontent (hchar ▸ hquote)
      rw [← List.nil_append (n :: ns)] at hrest
      obtain ⟨-, hns⟩ := hrest.of_append_cons hcontent' (hchar' ▸ hquote)
      exact List.forall_mem_cons.2 ⟨hfirst, ih hns⟩

theorem splitAtTwice_cons_of_ne (h : m.visible ≠ c) (ms : List Mark) :
    splitAtTwice c (m :: ms) = (splitAtTwice c ms).modifyHead (m :: ·) := by
  cases ms with
  | nil => rfl
  | cons n ms =>
      rw [splitAtTwice, if_neg fun htwice => h htwice.1]
      cases hsplit : splitAtTwice c (n :: ms) with
      | nil => exact absurd hsplit (splits_splitAtTwice c (n :: ms)).ne_nil
      | cons first rest => rfl

theorem splitAtTwice_of_forall_ne (h : ∀ m ∈ ms, m.visible ≠ c) : splitAtTwice c ms = [ms] := by
  induction ms with
  | nil => rfl
  | cons m ms ih =>
      rw [List.forall_mem_cons] at h
      rw [splitAtTwice_cons_of_ne h.1, ih h.2]
      rfl

/-- A part ends where the character stands twice for the first time. -/
theorem splitAtTwice_append_cons_cons (h : ∀ m ∈ ms, m.visible ≠ c) (hm : m.visible = c)
    (hn : n.visible = c) (ns : List Mark) :
    splitAtTwice c (ms ++ m :: n :: ns) = ms :: splitAtTwice c ns := by
  induction ms with
  | nil => rw [List.nil_append, splitAtTwice, if_pos ⟨hm, hn⟩]
  | cons k ms ih =>
      rw [List.forall_mem_cons] at h
      rw [List.cons_append, splitAtTwice_cons_of_ne h.1, ih h.2]
      rfl

end Cutting

/-- What joins the clauses of a marked condition. -/
def joint (ms : List Mark) : Connective :=
  if occursTwice '|' (visibleChars ms) then .or else .and

/-- A condition is accepted if its text is marked, holds nothing that conditions do not have, and
all of its clauses are accepted. -/
theorem ofText_eq_ok_iff {s : List Char} {condition : Condition} :
    ofText s = .ok condition ↔ trim s ≠ [] ∧
      ∃ ms, markLiterals (trim s) = .ok ms ∧ checkVisible (visibleChars ms) = .ok () ∧
      ∃ clauses, (splitAtTwice (joint ms).mark ms).mapM Clause.ofMarks = .ok clauses ∧
        condition = ⟨String.ofList (trim s), joint ms, clauses⟩ := by
  rw [ofText]
  constructor
  · intro h
    split at h
    next => cases h
    next hempty =>
      obtain ⟨ms, hms, h⟩ := Except.bind_eq_ok_iff.1 h
      obtain ⟨_, hcheck, h⟩ := Except.bind_eq_ok_iff.1 h
      obtain ⟨clauses, hclauses, h⟩ := Except.bind_eq_ok_iff.1 h
      cases h
      refine ⟨?_, ms, hms, hcheck, clauses, hclauses, rfl⟩
      intro heq
      exact hempty (by rw [heq]; rfl)
  · rintro ⟨hempty, ms, hms, hcheck, clauses, hclauses, rfl⟩
    rw [if_neg (by simpa using hempty)]
    refine Except.bind_eq_ok_iff.2 ⟨ms, hms, ?_⟩
    refine Except.bind_eq_ok_iff.2 ⟨(), hcheck, ?_⟩
    exact Except.bind_eq_ok_iff.2 ⟨clauses, hclauses, rfl⟩

end Condition

namespace Operator

/-- The characters that operators start with. -/
def starts : List Char :=
  ['=', '!', '>', '<']

theorem isBlank_eq_false_of_mem_starts {c : Char} (h : c ∈ starts) : Text.isBlank c = false := by
  rw [starts] at h
  fin_cases h <;> decide

theorem not_mem_symbol (operator : Operator) : '_' ∉ operator.symbol.toList := by
  cases operator <;> decide

theorem append_of_ofStart?_eq_some {s rest : List Char} {operator : Operator}
    (h : ofStart? s = some (operator, rest)) : operator.symbol.toList ++ rest = s := by
  unfold ofStart? at h
  split at h <;> cases h <;> rfl

theorem ofStart?_cons_of_not_mem {c : Char} (h : c ∉ starts) (s : List Char) :
    ofStart? (c :: s) = none := by
  unfold ofStart?
  split
  all_goals first | rfl | (next heq => cases heq; exact absurd (by decide) h)

theorem ofStart?_symbol_append_ne_none (operator : Operator) (s : List Char) :
    ofStart? (operator.symbol.toList ++ s) ≠ none := by
  intro h
  unfold ofStart? at h
  split at h
  any_goals cases h
  cases operator <;> simp_all [symbol]

/-- An operator at the start of a text is the same before anything but an equals sign. -/
theorem ofStart?_append_of_head?_ne {s t : List Char} (hs : s ≠ []) (ht : t.head? ≠ some '=') :
    ofStart? (s ++ t) = (ofStart? s).map fun (operator, rest) => (operator, rest ++ t) := by
  obtain ⟨c, s, rfl⟩ := List.exists_cons_of_ne_nil hs
  by_cases hc : c ∈ starts
  · cases s with
    | nil =>
        cases t with
        | nil => rw [starts] at hc; fin_cases hc <;> rfl
        | cons d t =>
            have hd : d ≠ '=' := fun hd => ht (congrArg some hd)
            rw [starts] at hc
            fin_cases hc <;> simp [ofStart?, hd]
    | cons d s =>
        by_cases hd : d = '='
        · rw [starts] at hc
          subst hd
          fin_cases hc <;> rfl
        · rw [starts] at hc
          fin_cases hc <;> simp [ofStart?, hd]
  · rw [List.cons_append, ofStart?_cons_of_not_mem hc, ofStart?_cons_of_not_mem hc,
      Option.map_none]

/-- What is an operator at the start of a text is one at the start of a longer text. -/
theorem ofStart?_append {s t : List Char} (h : ofStart? (s ++ t) = none) : ofStart? s = none := by
  cases hs : ofStart? s with
  | none => rfl
  | some found =>
      obtain ⟨operator, rest⟩ := found
      rw [← append_of_ofStart?_eq_some hs, List.append_assoc] at h
      exact absurd h (ofStart?_symbol_append_ne_none operator (rest ++ t))

end Operator

namespace Condition

variable {ms : List Mark}

theorem Blank.not_mem_starts (h : Blank ms) : ∀ m ∈ ms, m.visible ∉ Operator.starts :=
  fun m hm hmem => h.visible_ne (Operator.isBlank_eq_false_of_mem_starts hmem) m hm rfl

theorem Blank.head?_ne (h : Blank ms) : (visibleChars ms).head? ≠ some '=' := by
  cases ms with
  | nil => exact fun h => nomatch h
  | cons m ms =>
      intro heq
      exact h.visible_ne (by decide) m List.mem_cons_self (Option.some.inj heq)

end Condition

namespace Clause

open Condition (Blank Mark chars visibleChars)

variable {ms left right before after : List Mark} {c : Clause} {operator : Operator}

/-- What starts no operator stays before the first one. -/
theorem cutAtOperator?_append_of_forall (h : ∀ m ∈ left, m.visible ∉ Operator.starts)
    (ms : List Mark) :
    cutAtOperator? (left ++ ms) =
      (cutAtOperator? ms).map
        fun (before, operator, after) => (left ++ before, operator, after) := by
  induction left with
  | nil => exact Option.map_id'.symm
  | cons m left ih =>
      rw [List.forall_mem_cons] at h
      rw [List.cons_append, cutAtOperator?, Condition.visibleChars_cons,
        Operator.ofStart?_cons_of_not_mem h.1, ih h.2, Option.map_map]
      rfl

theorem cutAtOperator?_of_forall (h : ∀ m ∈ ms, m.visible ∉ Operator.starts) :
    cutAtOperator? ms = none := by
  rw [← List.append_nil ms, cutAtOperator?_append_of_forall h]
  rfl

/-- Blanks around a clause stay around its terms. -/
theorem cutAtOperator?_append_blank (hbefore : Blank before) (hafter : Blank after)
    (ms : List Mark) :
    cutAtOperator? (before ++ ms ++ after) = (cutAtOperator? ms).map
      fun (left, operator, right) => (before ++ left, operator, right ++ after) := by
  have hend : cutAtOperator? (ms ++ after) = (cutAtOperator? ms).map
      fun (left, operator, right) => (left, operator, right ++ after) := by
    induction ms with
    | nil => exact cutAtOperator?_of_forall hafter.not_mem_starts
    | cons m ms ih =>
        have hstart : Operator.ofStart? (visibleChars (m :: (ms ++ after))) =
            (Operator.ofStart? (visibleChars (m :: ms))).map
              fun (operator, rest) => (operator, rest ++ visibleChars after) := by
          rw [← List.cons_append, Condition.visibleChars_append]
          exact Operator.ofStart?_append_of_head?_ne (List.cons_ne_nil _ _) hafter.head?_ne
        rw [List.cons_append, cutAtOperator?, cutAtOperator?, hstart, ih]
        cases hfound : Operator.ofStart? (visibleChars (m :: ms)) with
        | none =>
            rw [Option.map_none]
            dsimp only
            rw [Option.map_map, Option.map_map]
            rfl
        | some found =>
            obtain ⟨operator, rest⟩ := found
            have hlength : operator.symbol.length ≤ (m :: ms).length := by
              have hlength := congrArg List.length (Operator.append_of_ofStart?_eq_some hfound)
              rw [List.length_append, String.length_toList, visibleChars,
                List.length_map] at hlength
              omega
            rw [Option.map_some]
            dsimp only
            rw [← List.cons_append, List.drop_append_of_le_length hlength]
            rfl
  rw [List.append_assoc, cutAtOperator?_append_of_forall hbefore.not_mem_starts, hend,
    Option.map_map]
  rfl

/-- A clause is read from its text as from the text with blanks around it. -/
theorem kindOfMarks_append_blank (hbefore : Blank before) (hafter : Blank after)
    (ms : List Mark) : kindOfMarks (before ++ ms ++ after) = kindOfMarks ms := by
  have hleft : ∀ left : List Mark,
      Term.ofText (chars (before ++ left)) = Term.ofText (chars left) := by
    intro left
    rw [← Term.ofText_trim, ← List.append_nil (before ++ left),
      Condition.trim_chars_append hbefore Condition.blank_nil, Term.ofText_trim]
  have hright : ∀ right : List Mark,
      Term.ofText (chars (right ++ after)) = Term.ofText (chars right) := by
    intro right
    rw [← Term.ofText_trim, ← List.nil_append (right ++ after), ← List.append_assoc,
      Condition.trim_chars_append Condition.blank_nil hafter, Term.ofText_trim]
  rw [kindOfMarks, kindOfMarks, cutAtOperator?_append_blank hbefore hafter]
  cases hcut : cutAtOperator? ms with
  | none =>
      rw [Option.map_none]
      dsimp only
      rw [Condition.trim_chars_append hbefore hafter]
  | some cut =>
      obtain ⟨left, operator, right⟩ := cut
      rw [Option.map_some]
      dsimp only
      rw [hleft, hright]

theorem ofMarks_append_blank (hbefore : Blank before) (hafter : Blank after) (ms : List Mark) :
    ofMarks (before ++ ms ++ after) = ofMarks ms := by
  rw [ofMarks, ofMarks, kindOfMarks_append_blank hbefore hafter,
    Condition.trim_chars_append hbefore hafter]

/-- A clause is cut at its first operator. -/
theorem eq_append_of_cutAtOperator?_eq_some
    (h : cutAtOperator? ms = some (left, operator, right)) :
    ∃ mid, ms = left ++ mid ++ right ∧ visibleChars mid = operator.symbol.toList ∧
      cutAtOperator? left = none := by
  induction ms generalizing left with
  | nil => cases h
  | cons m ms ih =>
      rw [cutAtOperator?] at h
      split at h
      next operator' rest hstart =>
        cases h
        have hmarks := Operator.append_of_ofStart?_eq_some hstart
        refine ⟨(m :: ms).take operator.symbol.length, ?_, ?_, rfl⟩
        · rw [List.nil_append, List.take_append_drop]
        · rw [visibleChars, List.map_take, ← visibleChars, ← hmarks, ← String.length_toList,
            List.take_left]
      next hstart =>
        obtain ⟨⟨left', operator', right'⟩, hcut, heq⟩ := Option.map_eq_some_iff.1 h
        cases heq
        obtain ⟨mid, rfl, hmid, hleft⟩ := ih hcut
        refine ⟨mid, rfl, hmid, ?_⟩
        have hnone : Operator.ofStart? (visibleChars (m :: left')) = none := by
          rw [List.append_assoc, ← List.cons_append, Condition.visibleChars_append] at hstart
          exact Operator.ofStart?_append hstart
        rw [cutAtOperator?, hnone, hleft]
        rfl

theorem ofMarks_eq_ok_iff :
    ofMarks ms = .ok c ↔ c.source = String.ofList (trim (chars ms)) ∧
      kindOfMarks ms = .ok c.kind := by
  constructor
  · intro h
    obtain ⟨kind, hkind, h⟩ := Except.bind_eq_ok_iff.1 h
    cases h
    exact ⟨rfl, hkind⟩
  · rintro ⟨hsource, hkind⟩
    obtain ⟨source, kind⟩ := c
    cases hsource
    exact Except.bind_eq_ok_iff.2 ⟨kind, hkind, rfl⟩

end Clause

namespace Condition

/-- The text of a clause stands in that of the condition. -/
theorem isInfix_source_of_ofText_eq_ok {s : List Char} {condition : Condition}
    (h : ofText s = .ok condition) {c : Clause} (hc : c ∈ condition.clauses) :
    c.source.toList <:+: condition.expression.toList := by
  obtain ⟨-, ms, hms, -, clauses, hclauses, rfl⟩ := ofText_eq_ok_iff.1 h
  obtain ⟨part, hpart, hofMarks⟩ := Except.exists_mem_of_mapM_eq_ok hclauses hc
  obtain ⟨hsource, -⟩ := Clause.ofMarks_eq_ok_iff.1 hofMarks
  have hpartIn := (splits_splitAtTwice (joint ms).mark ms).isInfix part hpart
  rw [hsource, String.toList_ofList, String.toList_ofList, ← chars_of_markLiterals_eq_ok hms]
  exact (Text.isInfix_trim _).trans (hpartIn.map _)

end Condition

end SqlTemplate
