import Mathlib
import SqlTemplate.Proofs.QuotedElements
import SqlTemplate.Proofs.Scanning

/-!
# Where test values end

A test value is what stands at the start of the rest of a template. What is cut off is told here from
the rest alone, without scanning it. If the rest begins with a quote mark it is the shortest literal
that no quote mark follows (`Template.IsLiteral`). If the rest begins with a parenthesis it is the
shortest text that ends outside of such literals and in which the parentheses outside of them are
balanced (`Template.IsParenthesized`). Either way it is all of the rest if there is no such text. In
any other case it is the longest text that may be a word (`Template.IsWord`).

The scan of parentheses only remembers whether it is in a literal. It skips literals as they are
skipped where the rest begins with one (`Template.spanParentheses_literalTail`), so it takes a text
apart into literals and characters outside of them, and what is proved of it is an induction on these
(`Template.literals_induction`).
-/

namespace SqlTemplate.Template

open Text (quote quoteMark literalTail)

section Cuts

variable {P : List Char → List Char → Prop} {s t r : List Char}

/-- The text is cut where what stands in front has the property for the first time, or not at all if
it has it nowhere. The property may look at what follows. -/
def CutsFirst (P : List Char → List Char → Prop) (s t r : List Char) : Prop :=
  t ++ r = s ∧
    (P t r ∧ (∀ t' r', t' ++ r' = s → P t' r' → t.length ≤ t'.length) ∨
      r = [] ∧ ∀ t' r', t' ++ r' = s → ¬ P t' r')

/-- The text is cut where what stands in front has the property for the last time. -/
def CutsLast (P : List Char → List Char → Prop) (s t r : List Char) : Prop :=
  t ++ r = s ∧ P t r ∧ ∀ t' r', t' ++ r' = s → P t' r' → t'.length ≤ t.length

/-- A scan that goes no further than the property is first met, and stops early only where it is met,
cuts there. -/
theorem cutsFirst_of_length_le (happend : t ++ r = s) (h : r = [] ∨ P t r)
    (hle : ∀ t' r', t' ++ r' = s → P t' r' → t.length ≤ t'.length) : CutsFirst P s t r := by
  refine ⟨happend, ?_⟩
  by_cases hex : ∃ t' r', t' ++ r' = s ∧ P t' r'
  · refine .inl ⟨?_, hle⟩
    obtain ⟨t', r', happend', hP⟩ := hex
    rcases h with rfl | h
    · -- All of the text was taken, so the property is met at its end.
      have hlength := hle t' r' happend' hP
      rw [List.append_nil] at happend
      subst happend
      rw [← happend', List.length_append] at hlength
      obtain rfl : r' = [] := List.length_eq_zero_iff.1 (by omega)
      rw [List.append_nil] at happend'
      rwa [← happend']
    · exact h
  · have hnone : ∀ t' r', t' ++ r' = s → ¬ P t' r' := fun t' r' h hP => hex ⟨t', r', h, hP⟩
    exact .inr ⟨h.resolve_right (hnone t r happend), hnone⟩

end Cuts

section Literals

/-- The text is a closed literal, and no quote mark follows it. -/
def IsLiteral (t r : List Char) : Prop :=
  (∃ inside, t = quote inside) ∧ r.head? ≠ some quoteMark

theorem literalTail_of_isLiteral {t r s : List Char} (h : IsLiteral t r)
    (happend : t ++ r = quoteMark :: s) : ∃ l, t = quoteMark :: l ∧ literalTail s = (l, r) := by
  obtain ⟨⟨inside, rfl⟩, hr⟩ := h
  rw [quote, List.cons_append, List.append_assoc, List.singleton_append] at happend
  obtain ⟨-, rfl⟩ := List.cons.inj happend
  exact ⟨_, rfl, Text.literalTail_double_append hr⟩

/-- A literal is cut off unless nothing closes it. -/
theorem literalTail_cases (s : List Char) :
    (literalTail s).2 = [] ∨ IsLiteral (quoteMark :: (literalTail s).1) (literalTail s).2 := by
  have hcases : (literalTail s).2 = [] ∨ ∃ inside,
      (literalTail s).1 = Text.double inside ++ [quoteMark] ∧
        (literalTail s).2.head? ≠ some quoteMark := by
    fun_induction literalTail s with
    | case1 => exact .inl rfl
    | case2 => exact .inl rfl
    | case3 s inside rest hs ih =>
        rw [hs] at ih
        refine ih.imp_right ?_
        rintro ⟨text, htext, hrest⟩
        refine ⟨quoteMark :: text, ?_, hrest⟩
        rw [Text.double, if_pos rfl]
        exact congrArg (quoteMark :: quoteMark :: ·) htext
    | case4 d s hd => exact .inr ⟨[], rfl, by simpa using hd⟩
    | case5 c d s hc inside rest hs ih =>
        rw [hs] at ih
        refine ih.imp_right ?_
        rintro ⟨text, htext, hrest⟩
        refine ⟨c :: text, ?_, hrest⟩
        rw [Text.double, if_neg hc]
        exact congrArg (c :: ·) htext
  refine hcases.imp_right ?_
  rintro ⟨inside, hinside, hrest⟩
  refine ⟨⟨inside, ?_⟩, hrest⟩
  rw [hinside]
  rfl

/-- A literal ends at the first quote mark that closes it. -/
theorem cutsFirst_literalTail (s : List Char) :
    CutsFirst IsLiteral (quoteMark :: s) (quoteMark :: (literalTail s).1) (literalTail s).2 := by
  refine cutsFirst_of_length_le ?_ (literalTail_cases s) fun t' r' happend h => ?_
  · rw [List.cons_append, Text.literalTail_append]
  · obtain ⟨l, rfl, hl⟩ := literalTail_of_isLiteral h happend
    rw [hl]

theorem length_literalTail_le (s : List Char) : (literalTail s).2.length ≤ s.length := by
  have h := congrArg List.length (Text.literalTail_append s)
  rw [List.length_append] at h
  omega

/-- A text is empty, or it begins with a character outside of literals, or with a literal, be it
closed or not. -/
theorem literals_induction {motive : List Char → Prop} (nil : motive [])
    (plain : ∀ c s, c ≠ quoteMark → motive s → motive (c :: s))
    (literal : ∀ s, motive (literalTail s).2 → motive (quoteMark :: s)) (s : List Char) :
    motive s := by
  match s with
  | [] => exact nil
  | c :: s =>
      by_cases hc : c = quoteMark
      · subst hc
        have hlength := length_literalTail_le s
        exact literal s (literals_induction nil plain literal (literalTail s).2)
      · exact plain c s hc (literals_induction nil plain literal s)
termination_by s.length

/-- The second text is what the first one has outside of literals, and the first one ends outside of
literals where it is followed by the given rest. -/
inductive Outside (r : List Char) : List Char → List Char → Prop where
  | nil : Outside r [] []
  | plain {c : Char} {t u : List Char} (hc : c ≠ quoteMark) (h : Outside r t u) :
      Outside r (c :: t) (c :: u)
  | literal {l t u : List Char} (hl : IsLiteral l (t ++ r)) (h : Outside r t u) :
      Outside r (l ++ t) u

theorem Outside.of_cons {r t u : List Char} {c : Char} (hc : c ≠ quoteMark)
    (h : Outside r (c :: t) u) : ∃ u', u = c :: u' ∧ Outside r t u' := by
  generalize hs : c :: t = s at h
  cases h with
  | nil => cases hs
  | plain _ h =>
      cases hs
      exact ⟨_, rfl, h⟩
  | literal hl =>
      obtain ⟨⟨inside, rfl⟩, -⟩ := hl
      exact absurd (List.cons.inj hs).1 hc

end Literals

section Parentheses

/-- Where some parentheses are open, the text closes them and those that it opens, and never more
than are open. -/
def Balances (opened : Nat) (u : List Char) : Prop :=
  u.count ')' = u.count '(' + opened ∧ ∀ p, p <+: u → p.count ')' ≤ p.count '(' + opened

variable {opened : Nat} {u : List Char}

theorem balances_nil : Balances 0 [] :=
  ⟨rfl, fun p hp => by simp [List.prefix_nil.1 hp]⟩

/-- A parenthesis in front is one more that is open behind it, or one less. -/
theorem Balances.cons {opened' : Nat} {c : Char} (h : Balances opened' u)
    (hc : opened + [c].count '(' = opened' + [c].count ')') : Balances opened (c :: u) := by
  obtain ⟨hcount, hprefix⟩ := h
  refine ⟨?_, fun p hp => ?_⟩
  · rw [← List.singleton_append, List.count_append, List.count_append]
    omega
  · rcases List.prefix_cons_iff.1 hp with rfl | ⟨q, rfl, hq⟩
    · exact Nat.zero_le _
    · have hle := hprefix q hq
      rw [← List.singleton_append, List.count_append, List.count_append]
      omega

/-- The text ends outside of literals, and outside of them its parentheses are balanced. -/
def IsParenthesized (t r : List Char) : Prop :=
  t ≠ [] ∧ ∃ u, Outside r t u ∧ Balances 0 u

/-- The scan of parentheses leaves a literal where the literal ends. -/
theorem spanParentheses_true (depth : Nat) (s : List Char) :
    spanParentheses depth true s =
      ((literalTail s).1 ++ (spanParentheses depth false (literalTail s).2).1,
        (spanParentheses depth false (literalTail s).2).2) := by
  fun_induction literalTail s with
  | case1 => rfl
  | case2 c =>
      by_cases hc : c = quoteMark
      · subst hc
        rfl
      · rw [spanParentheses_literal depth [] hc]
        rfl
  | case3 s inside rest hs ih =>
      rw [hs] at ih
      rw [spanParentheses_quoteMark, Bool.not_true, spanParentheses_quoteMark, Bool.not_false, ih]
      rfl
  | case4 d s hd => rw [spanParentheses_quoteMark, Bool.not_true, List.singleton_append]
  | case5 c d s hc inside rest hs ih =>
      rw [hs] at ih
      rw [spanParentheses_literal depth _ hc, ih]
      rfl

/-- The scan of parentheses skips a literal. -/
theorem spanParentheses_literalTail (depth : Nat) (s : List Char) :
    spanParentheses depth false (quoteMark :: s) =
      (quoteMark :: ((literalTail s).1 ++ (spanParentheses depth false (literalTail s).2).1),
        (spanParentheses depth false (literalTail s).2).2) := by
  rw [spanParentheses_quoteMark, Bool.not_false, spanParentheses_true]

theorem spanParentheses_one_closing (s : List Char) :
    spanParentheses 1 false (')' :: s) = ([')'], s) := rfl

/-- The scan takes all of the text, or it takes what closes the open parentheses. -/
theorem spanParentheses_cases (depth : Nat) (s : List Char) :
    (spanParentheses (depth + 1) false s).2 = [] ∨
      ∃ u, Outside (spanParentheses (depth + 1) false s).2
        (spanParentheses (depth + 1) false s).1 u ∧ Balances (depth + 1) u := by
  induction s using literals_induction generalizing depth with
  | nil => exact .inl rfl
  | plain c s hc ih =>
      by_cases hopening : c = '('
      · subst hopening
        rw [spanParentheses_opening]
        refine (ih (depth + 1)).imp_right ?_
        rintro ⟨u, hu, hbalances⟩
        exact ⟨_, .plain hc hu, hbalances.cons rfl⟩
      · by_cases hclosing : c = ')'
        · subst hclosing
          cases depth with
          | zero =>
              rw [spanParentheses_one_closing]
              exact .inr ⟨[')'], .plain hc .nil, balances_nil.cons rfl⟩
          | succ depth =>
              rw [spanParentheses_closing]
              refine (ih depth).imp_right ?_
              rintro ⟨u, hu, hbalances⟩
              exact ⟨_, .plain hc hu, hbalances.cons rfl⟩
        · rw [spanParentheses_plain _ _ (by simp [hc, hopening, hclosing])]
          refine (ih depth).imp_right ?_
          rintro ⟨u, hu, hbalances⟩
          exact ⟨_, .plain hc hu, hbalances.cons (by simp [hopening, hclosing])⟩
  | literal s ih =>
      rw [spanParentheses_literalTail]
      rcases literalTail_cases s with hnil | hliteral
      · -- Nothing is left behind a literal that is not closed.
        rw [hnil]
        exact .inl rfl
      · refine (ih depth).imp_right ?_
        rintro ⟨u, hu, hbalances⟩
        rw [← spanParentheses_append (depth + 1) false (literalTail s).2] at hliteral
        exact ⟨u, .literal hliteral hu, hbalances⟩

/-- The scan goes no further than the open parentheses are closed. -/
theorem length_spanParentheses_le {r t u : List Char} (h : Outside r t u) (depth : Nat)
    (hcount : u.count '(' + (depth + 1) ≤ u.count ')') :
    (spanParentheses (depth + 1) false (t ++ r)).1.length ≤ t.length := by
  induction h generalizing depth with
  | nil => simp at hcount
  | @plain c t u hc _ ih =>
      rw [List.cons_append]
      by_cases hopening : c = '('
      · subst hopening
        rw [List.count_cons_self, List.count_cons_of_ne (by decide)] at hcount
        rw [spanParentheses_opening]
        exact Nat.succ_le_succ (ih (depth + 1) (by omega))
      · by_cases hclosing : c = ')'
        · subst hclosing
          rw [List.count_cons_self, List.count_cons_of_ne (by decide)] at hcount
          cases depth with
          | zero =>
              rw [spanParentheses_one_closing]
              exact Nat.succ_le_succ (Nat.zero_le _)
          | succ depth =>
              rw [spanParentheses_closing]
              exact Nat.succ_le_succ (ih depth (by omega))
        · rw [List.count_cons_of_ne hopening, List.count_cons_of_ne hclosing] at hcount
          rw [spanParentheses_plain _ _ (by simp [hc, hopening, hclosing])]
          exact Nat.succ_le_succ (ih depth hcount)
  | @literal l t u hl _ ih =>
      obtain ⟨l', rfl⟩ : ∃ l', l = quoteMark :: l' := by
        obtain ⟨⟨inside, rfl⟩, -⟩ := hl
        exact ⟨_, rfl⟩
      obtain ⟨_, heq, htail⟩ := literalTail_of_isLiteral hl List.cons_append
      cases heq
      rw [List.append_assoc, List.cons_append, spanParentheses_literalTail, htail]
      have hlength := ih depth hcount
      simp only [List.length_cons, List.length_append]
      omega

/-- A text that begins with a parenthesis is cut where its parentheses are first balanced. -/
theorem cutsFirst_spanParentheses (s : List Char) :
    CutsFirst IsParenthesized ('(' :: s) (spanParentheses 0 false ('(' :: s)).1
      (spanParentheses 0 false ('(' :: s)).2 := by
  have hmark : '(' ≠ quoteMark := by decide
  refine cutsFirst_of_length_le (spanParentheses_append 0 false _) ?_ fun t' r' happend h => ?_
  · rw [spanParentheses_opening]
    refine (spanParentheses_cases 0 s).imp_right ?_
    rintro ⟨u, hu, hbalances⟩
    exact ⟨List.cons_ne_nil _ _, _, .plain hmark hu, hbalances.cons rfl⟩
  · obtain ⟨hne, u, hu, hbalances⟩ := h
    obtain ⟨c, t, rfl⟩ := List.exists_cons_of_ne_nil hne
    rw [List.cons_append] at happend
    obtain ⟨rfl, rfl⟩ := List.cons.inj happend
    obtain ⟨v, rfl, hv⟩ := hu.of_cons hmark
    have hcount := hbalances.1
    rw [List.count_cons_self, List.count_cons_of_ne (by decide)] at hcount
    rw [spanParentheses_opening]
    exact Nat.succ_le_succ (length_spanParentheses_le hv 0 (by omega))

end Parentheses

section Words

variable {extent : Extent} {c : Char} {s t r : List Char}

/-- No word goes on with the character. -/
def Stops (extent : Extent) (c : Char) : Prop :=
  Text.isBlank c = true ∨ c ∈ [',', '(', ')', ';', quoteMark] ∨ extent = .untilPoint ∧ c = '.'

/-- The text may be a word: no character in it stops one, and no comment begins in it. -/
def IsWord (extent : Extent) (t r : List Char) : Prop :=
  (∀ c ∈ t, ¬ Stops extent c) ∧
    ∀ b, b <:+ t → b ≠ [] → ¬ commentOpening <+: b ++ r ∧ ¬ lineCommentMark <+: b ++ r

theorem endsWord_cons_iff : endsWord extent (c :: s) = true ↔
    Stops extent c ∨ commentOpening <+: c :: s ∨ lineCommentMark <+: c :: s := by
  have hstarts : ∀ p, Text.startsWith p (c :: s) = true ↔ p <+: c :: s := by
    intro p
    rw [Text.isPrefix_iff_dropStart?, Text.startsWith, Option.isSome_iff_ne_none]
  simp only [endsWord, Bool.or_eq_true, Bool.and_eq_true, beq_iff_eq, hstarts, Stops,
    List.mem_cons, List.not_mem_nil, or_false, or_assoc]

/-- A word goes on with what does not end one. -/
theorem isWord_cons_iff : IsWord extent (c :: t) r ↔
    endsWord extent (c :: (t ++ r)) = false ∧ IsWord extent t r := by
  rw [← Bool.not_eq_true, endsWord_cons_iff, IsWord, IsWord, List.forall_mem_cons]
  simp only [List.suffix_cons_iff, or_imp, forall_and, forall_eq, not_or, ne_eq, List.cons_append,
    reduceCtorEq, not_false_iff, true_imp_iff]
  tauto

/-- A word goes as far as one may go. -/
theorem cutsLast_spanWord (extent : Extent) (s : List Char) :
    CutsLast (IsWord extent) s (spanWord extent s).1 (spanWord extent s).2 := by
  refine ⟨spanWord_append extent s, ?_⟩
  have hempty : ∀ r, IsWord extent [] r :=
    fun r => ⟨List.forall_mem_nil _, fun b hb hne => absurd (List.suffix_nil.1 hb) hne⟩
  induction s with
  | nil =>
      refine ⟨hempty _, fun t' r' happend _ => ?_⟩
      rw [(List.append_eq_nil_iff.1 happend).1]
      exact Nat.zero_le _
  | cons c s ih =>
      rw [spanWord]
      split
      next hends =>
        refine ⟨hempty _, fun t' r' happend h => ?_⟩
        cases t' with
        | nil => exact Nat.zero_le _
        | cons d t' =>
            rw [List.cons_append] at happend
            obtain ⟨rfl, rfl⟩ := List.cons.inj happend
            rw [(isWord_cons_iff.1 h).1] at hends
            cases hends
      next hends =>
        refine ⟨isWord_cons_iff.2 ⟨?_, ih.1⟩, fun t' r' happend h => ?_⟩
        · rw [spanWord_append]
          exact Bool.eq_false_iff.2 hends
        · cases t' with
          | nil => exact Nat.zero_le _
          | cons d t' =>
              rw [List.cons_append] at happend
              obtain ⟨rfl, rfl⟩ := List.cons.inj happend
              exact Nat.succ_le_succ (ih.2 t' r' rfl (isWord_cons_iff.1 h).2)

end Words

/-- A test value is taken from the rest of a template, and the cursor is left behind it: the shortest
literal or the shortest text with balanced parentheses, as the rest begins, or else the longest
word. -/
theorem Cursor.testValue_cuts (c : Cursor) (extent : Extent) :
    ∃ t r, c.testValue extent = (t, ⟨r, c.position.after t⟩) ∧ t ++ r = c.rest ∧
      (c.rest.head? = some quoteMark → CutsFirst IsLiteral c.rest t r) ∧
      (c.rest.head? = some '(' → CutsFirst IsParenthesized c.rest t r) ∧
      (c.rest.head? ≠ some quoteMark → c.rest.head? ≠ some '(' →
        CutsLast (IsWord extent) c.rest t r) := by
  refine ⟨(Template.testValue extent c.rest).1, (Template.testValue extent c.rest).2, rfl,
    testValue_append extent c.rest, fun h => ?_, fun h => ?_, fun hquote hopen => ?_⟩
  · obtain ⟨s, hs⟩ := List.head?_eq_some_iff.1 h
    rw [hs]
    exact cutsFirst_literalTail s
  · obtain ⟨s, hs⟩ := List.head?_eq_some_iff.1 h
    rw [hs]
    exact cutsFirst_spanParentheses s
  · cases hrest : c.rest with
    | nil => exact cutsLast_spanWord extent []
    | cons d s =>
        rw [hrest, List.head?_cons, ne_eq, Option.some.injEq] at hquote hopen
        rw [Template.testValue, if_neg hquote, if_neg hopen]
        exact cutsLast_spanWord extent (d :: s)

/-- A parenthesis in a literal and one around another one do not end a test value. -/
theorem Cursor.testValue_cuts_parentheses :
    let c : Cursor := .ofText "('a)', (b)), d"
    c.rest.head? = some '(' ∧
      CutsFirst IsParenthesized c.rest "('a)', (b))".toList ", d".toList := by
  intro c
  have hhead : c.rest.head? = some '(' := by decide
  have hvalue : Template.testValue .full c.rest = ("('a)', (b))".toList, ", d".toList) := by
    decide
  obtain ⟨t, r, hcut, -, -, hparentheses, -⟩ := c.testValue_cuts .full
  have ht : (Template.testValue .full c.rest).1 = t := congrArg Prod.fst hcut
  have hr : (Template.testValue .full c.rest).2 = r := congrArg (fun p => p.2.rest) hcut
  rw [hvalue] at ht hr
  subst ht hr
  exact ⟨hhead, hparentheses hhead⟩

end SqlTemplate.Template
