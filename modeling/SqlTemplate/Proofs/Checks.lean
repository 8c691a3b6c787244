import Mathlib
import SqlTemplate.Condition.Reading

/-!
# Checks of conditions

The visible text of a condition is checked from the left. A text that passes is one behind which
the checks go on as if nothing had been there (`Condition.Passes`). Texts that pass may be put
together with blanks between them (`Condition.Passes.append`), and what passes as a whole is
accepted (`Condition.Passes.checkVisible`).
-/

namespace SqlTemplate.Condition

variable {s t : List Char} {c : Char}

theorem occursTwice_of_not_mem (h : c ∉ s) : occursTwice c s = false := by
  fun_induction occursTwice c s with
  | case1 => rfl
  | case2 => rfl
  | case3 a b s ih =>
      rw [List.mem_cons, not_or] at h
      rw [ih h.2, beq_eq_false_iff_ne.2 (Ne.symm h.1)]
      rfl

theorem occursTwice_cons_of_occursTwice (a : Char) (h : occursTwice c s = true) :
    occursTwice c (a :: s) = true := by
  cases s with
  | nil => cases h
  | cons b s => rw [occursTwice, h, Bool.or_true]

theorem occursTwice_append_cons_cons (c : Char) (s t : List Char) :
    occursTwice c (s ++ c :: c :: t) = true := by
  induction s with
  | nil => simp [occursTwice]
  | cons a s ih => exact occursTwice_cons_of_occursTwice a ih

theorem occursLessGreater_append_of_not_mem (h : '<' ∉ s) (t : List Char) :
    occursLessGreater (s ++ t) = occursLessGreater t := by
  induction s with
  | nil => rfl
  | cons a s ih =>
      rw [List.mem_cons, not_or] at h
      have ha : (a == '<') = false := beq_eq_false_iff_ne.2 (Ne.symm h.1)
      rw [← ih h.2, List.cons_append]
      cases s ++ t with
      | nil => rfl
      | cons b r => rw [occursLessGreater, ha, Bool.false_and, Bool.false_or]

section Parentheses

/-- The parentheses of the text are those of calls, which end where it ends. -/
def Calls (s : List Char) : Prop :=
  ∀ before rest, hasLooseParenthesis before none (s ++ rest) =
    hasLooseParenthesis (s.reverse ++ before) none rest

theorem hasLooseParenthesis_append_of_not_mem (hopening : '(' ∉ s) (hclosing : ')' ∉ s)
    (before : List Char) (opened : Option Bool) (rest : List Char) :
    hasLooseParenthesis before opened (s ++ rest) =
      hasLooseParenthesis (s.reverse ++ before) opened rest := by
  induction s generalizing before with
  | nil => rfl
  | cons a s ih =>
      rw [List.mem_cons, not_or] at hopening hclosing
      rw [List.cons_append, hasLooseParenthesis.eq_def]
      dsimp only
      rw [if_neg (Ne.symm hopening.1), if_neg (Ne.symm hclosing.1), ih hopening.2 hclosing.2,
        List.reverse_cons, List.append_assoc, List.singleton_append]

theorem calls_of_not_mem (hopening : '(' ∉ s) (hclosing : ')' ∉ s) : Calls s :=
  fun before rest => hasLooseParenthesis_append_of_not_mem hopening hclosing before none rest

theorem Calls.append (hs : Calls s) (ht : Calls t) : Calls (s ++ t) := by
  intro before rest
  rw [List.append_assoc, hs, ht, List.reverse_append, List.append_assoc]

theorem calls_parentheses : Calls ['(', ')'] := by
  intro before rest
  simp [hasLooseParenthesis]

/-- What stands in the parentheses of `get` belongs to the call. -/
theorem calls_get (hopening : '(' ∉ s) (hclosing : ')' ∉ s) :
    Calls ("get(".toList ++ s ++ ")".toList) := by
  intro before rest
  have hget : ∀ r, hasLooseParenthesis before none ("get(".toList ++ r) =
      hasLooseParenthesis ("(teg".toList ++ before) (some true) r := by
    intro r
    simp [hasLooseParenthesis]
  rw [List.append_assoc, List.append_assoc, hget,
    hasLooseParenthesis_append_of_not_mem hopening hclosing]
  simp [hasLooseParenthesis]

end Parentheses

section Equals

/-- What may stand behind a part of a condition: nothing, or a blank. -/
def Ends (rest : List Char) : Prop :=
  rest = [] ∨ ∃ r, rest = ' ' :: r

/-- Behind a part it does not count what the part ends with. -/
theorem hasSingleEquals_of_ends {rest : List Char} (h : Ends rest) (previous : Option Char) :
    hasSingleEquals previous rest = hasSingleEquals none rest := by
  rcases h with rfl | ⟨r, rfl⟩
  · rfl
  · simp [hasSingleEquals]

theorem hasSingleEquals_append_of_not_mem (h : '=' ∉ s) {rest : List Char} (hrest : Ends rest)
    (previous : Option Char) :
    hasSingleEquals previous (s ++ rest) = hasSingleEquals none rest := by
  induction s generalizing previous with
  | nil => exact hasSingleEquals_of_ends hrest previous
  | cons a s ih =>
      rw [List.mem_cons, not_or] at h
      have ha : (a == '=') = false := beq_eq_false_iff_ne.2 (Ne.symm h.1)
      rw [List.cons_append, hasSingleEquals]
      simp only [ha, Bool.false_and, Bool.false_or]
      exact ih h.2 _

end Equals

/-- Behind the text the checks go on as if it had not been there. -/
structure Passes (s : List Char) : Prop where
  quotation : '"' ∉ s
  calls : Calls s
  lessGreater : ∀ rest, Ends rest → occursLessGreater (s ++ rest) = occursLessGreater rest
  equals : ∀ previous rest, Ends rest →
    hasSingleEquals previous (s ++ rest) = hasSingleEquals none rest

theorem passes_of_not_mem (hquotation : '"' ∉ s) (hless : '<' ∉ s) (hequals : '=' ∉ s)
    (hcalls : Calls s) : Passes s where
  quotation := hquotation
  calls := hcalls
  lessGreater rest _ := occursLessGreater_append_of_not_mem hless rest
  equals previous _ hrest := hasSingleEquals_append_of_not_mem hequals hrest previous

/-- What passes may be put together with blanks between the parts. -/
theorem Passes.append (hs : Passes s) (ht : Passes t) : Passes (s ++ ' ' :: t) where
  quotation := by
    rw [List.mem_append, List.mem_cons, not_or, not_or]
    exact ⟨hs.quotation, by decide, ht.quotation⟩
  calls := by
    have hblank : Calls [' '] := calls_of_not_mem (by decide) (by decide)
    exact hs.calls.append (hblank.append ht.calls)
  lessGreater rest hrest := by
    rw [List.append_assoc, List.cons_append, hs.lessGreater _ (.inr ⟨_, rfl⟩),
      ← ht.lessGreater rest hrest]
    exact occursLessGreater_append_of_not_mem (s := [' ']) (by decide) (t ++ rest)
  equals previous rest hrest := by
    rw [List.append_assoc, List.cons_append, hs.equals _ _ (.inr ⟨_, rfl⟩),
      ← ht.equals (some ' ') rest hrest]
    simp [hasSingleEquals]

theorem passes_symbol (operator : Operator) : Passes operator.symbol.toList where
  quotation := by cases operator <;> decide
  calls := calls_of_not_mem (by cases operator <;> decide) (by cases operator <;> decide)
  lessGreater rest hrest := by
    rcases hrest with rfl | ⟨r, rfl⟩ <;> cases operator <;>
      simp [Operator.symbol, occursLessGreater]
  equals previous rest hrest := by
    rcases hrest with rfl | ⟨r, rfl⟩ <;> cases operator <;>
      simp [Operator.symbol, hasSingleEquals]

/-- What passes as a whole holds nothing that conditions do not have, unless both connectives
occur in it. -/
theorem Passes.checkVisible (h : Passes s)
    (hconnectives : (occursTwice '&' s && occursTwice '|' s) = false) :
    checkVisible s = .ok () := by
  have hquotation : s.contains '"' = false := by simpa using h.quotation
  have hcalls : hasLooseParenthesis [] none s = false := by
    have hcalls := h.calls [] []
    rw [List.append_nil] at hcalls
    rw [hcalls]
    rfl
  have hless : occursLessGreater s = false := by
    have hless := h.lessGreater [] (.inl rfl)
    rw [List.append_nil] at hless
    rw [hless]
    rfl
  have hequals : hasSingleEquals none s = false := by
    have hequals := h.equals none [] (.inl rfl)
    rw [List.append_nil] at hequals
    rw [hequals]
    rfl
  rw [Condition.checkVisible, hquotation, hcalls, hconnectives, hless, hequals]
  rfl

end SqlTemplate.Condition
