import Mathlib
import SqlTemplate.Proofs.ListExpansion
import SqlTemplate.Proofs.WrittenTerms

/-!
# Quoted elements

The elements of an embedded list are quoted if the first element of the test value is. A test value
ends where its parentheses are balanced outside of literals (`testValue_of_isBalanced`), so commas,
parentheses and quote marks may stand in a literal of it.

The first element is cut off at the first comma, however, wherever that stands. A literal with a
comma in it is cut in two, and then it is the first part that decides: it has a quote mark in front,
so the elements are quoted if and only if it has another one at its end
(`Variable.any_isQuoted_firstElement?`). `Context.embed_quoted_elements` says this of lists of
strings; without a comma in the literal the elements are quoted always.
-/

namespace SqlTemplate

namespace Text

/-- Parentheses and quote marks are balanced in the text. In a literal parentheses do not count. -/
inductive IsBalanced : List Char → Prop where
  | nil : IsBalanced []
  | plain {c : Char} {s : List Char} (hc : c ∉ [quoteMark, '(', ')']) (hs : IsBalanced s) :
      IsBalanced (c :: s)
  | literal {inside s : List Char} (hinside : quoteMark ∉ inside) (hs : IsBalanced s) :
      IsBalanced (quoteMark :: (inside ++ quoteMark :: s))
  | parentheses {inside s : List Char} (hinside : IsBalanced inside) (hs : IsBalanced s) :
      IsBalanced ('(' :: (inside ++ ')' :: s))

/-- A quoted text is balanced, whatever is quoted: a doubled quote mark ends one literal and starts
another one. -/
theorem isBalanced_quote_append (s : List Char) {rest : List Char} (h : IsBalanced rest) :
    IsBalanced (quote s ++ rest) := by
  -- A doubled mark ends a literal in the middle of `s`: `before` is what the open one has so far.
  have hopened : ∀ before, quoteMark ∉ before →
      IsBalanced (quoteMark :: (before ++ double s ++ quoteMark :: rest)) := by
    induction s with
    | nil =>
        intro before hbefore
        rw [double_nil, List.append_nil]
        exact .literal hbefore h
    | cons c s ih =>
        intro before hbefore
        by_cases hc : c = quoteMark
        · rw [double, if_pos hc, List.append_assoc]
          exact .literal hbefore (ih [] List.not_mem_nil)
        · have hlonger : quoteMark ∉ before ++ [c] := by
            rw [List.mem_append, List.mem_singleton, not_or]
            exact ⟨hbefore, Ne.symm hc⟩
          have hs := ih (before ++ [c]) hlonger
          rw [double, if_neg hc]
          rwa [List.append_assoc before, List.singleton_append] at hs
  have hquote := hopened [] List.not_mem_nil
  rw [quote, List.cons_append, List.append_assoc]
  exact hquote

theorem double_eq_nil_iff {s : List Char} : double s = [] ↔ s = [] := by
  constructor
  · intro h
    have hlength := length_le_length_double s
    rw [h] at hlength
    exact List.length_eq_zero_iff.1 (Nat.le_zero.1 hlength)
  · rintro rfl
    rfl

theorem trimEnd_double (s : List Char) : trimEnd (double s) = double (trimEnd s) := by
  have hmark : isBlank quoteMark = false := by decide
  induction s with
  | nil => rfl
  | cons c s ih =>
      by_cases hc : c = quoteMark
      · simp [double, hc, trimEnd_cons, ih, hmark]
      · rw [double, if_neg hc, trimEnd_cons, trimEnd_cons, ih]
        simp only [double_eq_nil_iff]
        split
        next => rfl
        next => rw [double, if_neg hc]

theorem getLast?_double (s : List Char) : (double s).getLast? = s.getLast? := by
  induction s using List.reverseRecOn with
  | nil => rfl
  | append_singleton s c ih =>
      rw [double_append, List.getLast?_concat]
      by_cases hc : c = quoteMark
      · rw [double, if_pos hc, double_nil, List.getLast?_append, hc]
        rfl
      · rw [double, if_neg hc, double_nil, List.getLast?_concat]

theorem mem_double {c : Char} {s : List Char} : c ∈ double s ↔ c ∈ s := by
  induction s with
  | nil => rfl
  | cons d s ih =>
      by_cases hd : d = quoteMark <;> simp [double, hd, ih]

theorem takeWhile_append_cons {sep : Char} {a : List Char} (h : sep ∉ a) (b : List Char) :
    (a ++ sep :: b).takeWhile (· != sep) = a := by
  have hbefore : ∀ c ∈ a, (c != sep) = true := fun c hc => bne_iff_ne.2 fun hsep => h (hsep ▸ hc)
  rw [List.takeWhile_append_of_pos hbefore, List.takeWhile_cons_of_neg (by simp), List.append_nil]

end Text

namespace Template

section Parentheses

variable (depth : Nat) (s : List Char)

theorem spanParentheses_quoteMark (literal : Bool) :
    spanParentheses depth literal (Text.quoteMark :: s) =
      (Text.quoteMark :: (spanParentheses depth (!literal) s).1,
        (spanParentheses depth (!literal) s).2) := rfl

theorem spanParentheses_literal {c : Char} (hc : c ≠ Text.quoteMark) :
    spanParentheses depth true (c :: s) =
      (c :: (spanParentheses depth true s).1, (spanParentheses depth true s).2) := by
  rw [spanParentheses, if_neg hc, if_pos rfl]

theorem spanParentheses_plain {c : Char} (hc : c ∉ [Text.quoteMark, '(', ')']) :
    spanParentheses depth false (c :: s) =
      (c :: (spanParentheses depth false s).1, (spanParentheses depth false s).2) := by
  simp only [List.mem_cons, List.not_mem_nil, or_false, not_or] at hc
  rw [spanParentheses, if_neg hc.1, if_neg Bool.false_ne_true, if_neg hc.2.1, if_neg hc.2.2]

theorem spanParentheses_opening :
    spanParentheses depth false ('(' :: s) =
      ('(' :: (spanParentheses (depth + 1) false s).1,
        (spanParentheses (depth + 1) false s).2) := rfl

theorem spanParentheses_closing :
    spanParentheses (depth + 2) false (')' :: s) =
      (')' :: (spanParentheses (depth + 1) false s).1,
        (spanParentheses (depth + 1) false s).2) := rfl

end Parentheses

/-- A literal goes on up to the next quote mark. -/
theorem spanParentheses_inside {inside : List Char} (h : Text.quoteMark ∉ inside) (depth : Nat)
    (t : List Char) :
    spanParentheses depth true (inside ++ Text.quoteMark :: t) =
      (inside ++ Text.quoteMark :: (spanParentheses depth false t).1,
        (spanParentheses depth false t).2) := by
  induction inside with
  | nil => rfl
  | cons c inside ih =>
      rw [List.mem_cons, not_or] at h
      rw [List.cons_append, spanParentheses_literal _ _ (Ne.symm h.1), ih h.2]
      rfl

/-- Behind a balanced text the depth is what it was in front. -/
theorem spanParentheses_of_isBalanced {s : List Char} (h : Text.IsBalanced s) (depth : Nat)
    (t : List Char) :
    spanParentheses (depth + 1) false (s ++ t) =
      (s ++ (spanParentheses (depth + 1) false t).1,
        (spanParentheses (depth + 1) false t).2) := by
  induction h generalizing depth t with
  | nil => rfl
  | plain hc hs ih =>
      rw [List.cons_append, spanParentheses_plain _ _ hc, ih]
      rfl
  | literal hinside hs ih =>
      rw [List.cons_append, List.append_assoc, List.cons_append, spanParentheses_quoteMark,
        Bool.not_false, spanParentheses_inside hinside, ih]
      simp
  | parentheses hinside hs ihinside ih =>
      rw [List.cons_append, List.append_assoc, List.cons_append, spanParentheses_opening, ihinside,
        spanParentheses_closing, ih]
      simp

/-- A test value ends where its parentheses are balanced. -/
theorem testValue_of_isBalanced {inside : List Char} (h : Text.IsBalanced inside)
    (extent : Extent) (after : List Char) :
    testValue extent ('(' :: (inside ++ ')' :: after)) = ('(' :: (inside ++ [')']), after) := by
  have hclosing : spanParentheses 1 false (')' :: after) = ([')'], after) := rfl
  rw [testValue, if_neg (by decide), if_pos rfl, spanParentheses_opening,
    spanParentheses_of_isBalanced h, hclosing]

namespace Variable

theorem isQuoted_trim (s : List Char) : isQuoted (Text.trim s) = isQuoted s := by
  rw [isQuoted, isQuoted, Text.trim_trim]

/-- A text with a quote mark in front is quoted if there is another one at its end. -/
theorem isQuoted_quoteMark_cons (s : List Char) :
    isQuoted (Text.quoteMark :: s) = ((Text.trimEnd s).getLast? == some Text.quoteMark) := by
  rw [isQuoted, Text.trim, Text.trimStart_cons, if_neg (by decide), Text.trimEnd_cons,
    if_neg (by rintro ⟨-, h⟩; revert h; decide)]
  cases Text.trimEnd s with
  | nil => rfl
  | cons c s => rfl

/-- The first element of a test value is what stands in front of the first comma. -/
theorem firstElement?_of_not_mem {first rest : List Char} (hfirst : ',' ∉ first)
    (hrest : rest = [] ∨ rest.head? = some ',') :
    firstElement? ('(' :: (first ++ rest ++ [')'])) = some (Text.trim first) := by
  have htrim : Text.trim ('(' :: (first ++ rest ++ [')'])) = '(' :: (first ++ rest ++ [')']) := by
    rw [Text.trim, Text.trimStart_cons, if_neg (by decide), ← List.cons_append,
      Text.trimEnd_append_cons (by decide)]
    rfl
  have hdrop : Text.dropStart? ['('] ('(' :: (first ++ rest ++ [')'])) =
      some (first ++ rest ++ [')']) := rfl
  rw [firstElement?, htrim, hdrop, Option.map_some, Text.dropEnd?_append, Option.getD_some]
  dsimp only
  rcases hrest with rfl | hrest
  · rw [List.append_nil, (Text.cutAtChar?_eq_none_iff first).2 hfirst]
  · obtain ⟨t, rfl⟩ := List.head?_eq_some_iff.1 hrest
    rw [Text.cutAtChar?_append_cons hfirst]

/-- Up to the first comma in it, if there is one, the literal of a text looks like a literal. -/
def IsQuotedUpToComma (s : List Char) : Prop :=
  ',' ∉ s ∨ (Text.trimEnd (s.takeWhile (· != ','))).getLast? = some Text.quoteMark

instance (s : List Char) : Decidable (IsQuotedUpToComma s) :=
  inferInstanceAs (Decidable (_ ∨ _))

/-- The elements are quoted if the literal up to the first comma looks like one. -/
theorem any_isQuoted_firstElement? {s rest : List Char}
    (hrest : rest = [] ∨ rest.head? = some ',') :
    (firstElement? ('(' :: (Text.quote s ++ rest ++ [')']))).any isQuoted = true ↔
      IsQuotedUpToComma s := by
  rw [IsQuotedUpToComma]
  by_cases hs : ',' ∈ s
  · obtain ⟨before, after, rfl, hbefore⟩ := List.eq_append_cons_of_mem hs
    have hfirst : ',' ∉ Text.quoteMark :: Text.double before := by
      rw [List.mem_cons, Text.mem_double, not_or]
      exact ⟨by decide, hbefore⟩
    have hcut : Text.quote (before ++ ',' :: after) ++ rest =
        Text.quoteMark :: Text.double before ++
          (',' :: (Text.double after ++ Text.quoteMark :: rest)) := by
      rw [Text.quote, Text.double_append, Text.double, if_neg (by decide)]
      simp
    rw [hcut, firstElement?_of_not_mem hfirst (.inr rfl), Option.any_some, isQuoted_trim,
      isQuoted_quoteMark_cons, Text.trimEnd_double, Text.getLast?_double, beq_iff_eq,
      Text.takeWhile_append_cons hbefore]
    exact ⟨.inr, fun h => h.resolve_left (· hs)⟩
  · have hfirst : ',' ∉ Text.quote s := by
      rw [Text.quote, List.mem_cons, List.mem_append, List.mem_singleton, Text.mem_double]
      rintro (h | h | h)
      · revert h
        decide
      · exact hs h
      · revert h
        decide
    rw [firstElement?_of_not_mem hfirst hrest, Option.any_some, isQuoted_trim, Text.quote,
      isQuoted_quoteMark_cons, Text.trimEnd_append_cons (by decide), Text.trimEnd_nil,
      List.getLast?_concat]
    exact ⟨fun _ => .inl hs, fun _ => rfl⟩

end Variable

end Template

/-- Quoted texts are longer than the texts, also if they are joined. -/
theorem listed_map_sqlQuote_ne {texts : List String} (hne : texts ≠ []) :
    BoundSql.listed (texts.map Text.sqlQuote) ≠ BoundSql.listed texts := by
  have hlonger : ∀ texts : List String, texts ≠ [] →
      (", ".intercalate texts).length < (", ".intercalate (texts.map Text.sqlQuote)).length := by
    intro texts hne
    induction texts with
    | nil => exact absurd rfl hne
    | cons s texts ih =>
        have hs := Text.length_lt_length_sqlQuote s
        cases texts with
        | nil => simpa using hs
        | cons t texts =>
            have htexts := ih (List.cons_ne_nil t texts)
            rw [List.map_cons] at htexts ⊢
            rw [List.map_cons, String.intercalate_cons_cons, String.intercalate_cons_cons]
            simp only [String.length_append]
            omega
  intro h
  have hlength := congrArg String.length h
  simp only [BoundSql.listed, String.length_append] at hlength
  have := hlonger texts hne
  omega

/-- Of a list of strings and nulls the strings are present. -/
theorem filter_isNull_of_strings {items : List Value}
    (h : ∀ w ∈ items, w = .null ∨ ∃ s, w = .string s) :
    items.filter (!·.isNull) = (items.filterMap Value.asString?).map .string := by
  induction items with
  | nil => rfl
  | cons w items ih =>
      rw [List.forall_mem_cons] at h
      rcases h.1 with rfl | ⟨s, rfl⟩
      · exact ih h.2
      · exact congrArg (Value.string s :: ·) (ih h.2)

namespace Context

open Template (Variable)

variable {c : Context} {loops : List Loop} {v : Variable} {r : Resolved}

/-- A list of strings is embedded with quotes if the first element of the test value has them. -/
theorem embed_strings {items : List Value} (hscope : v.inScope = true)
    (hr : v.path.resolve v.expression c.environment loops = .ok r)
    (htarget : r.target = .list items)
    (hitems : ∀ w ∈ items, w = .null ∨ ∃ s, w = .string s ∧ '?' ∉ s.toList)
    (hsome : ∃ s, .string s ∈ items) (mode : Template.EmbeddedMode) :
    c.embed loops v mode =
      ((c.add (.ofSql (BoundSql.listed
        (if v.quotesElements mode then (items.filterMap Value.asString?).map Text.sqlQuote
          else items.filterMap Value.asString?)))).setEnabled true, none) := by
  obtain ⟨s, hs⟩ := hsome
  have hexpansion : Variable.expansion c.environment.config.blockNull (.list items) =
      .ok ((items.filterMap Value.asString?).map .string) := by
    rw [← filter_isNull_of_strings fun w hw => (hitems w hw).imp id fun ⟨s, hs, _⟩ => ⟨s, hs⟩]
    exact Variable.elements_eq_ok hs (by simp)
  have hmark : ∀ w ∈ (items.filterMap Value.asString?).map Value.string, '?' ∉ w.text.toList := by
    intro w hw
    obtain ⟨t, ht, rfl⟩ := List.mem_map.1 hw
    obtain ⟨w, hw, hwt⟩ := List.mem_filterMap.1 ht
    rw [Value.asString?_eq_some_iff] at hwt
    rcases hitems w hw with rfl | ⟨u, rfl, hu⟩
    · cases hwt
    · cases hwt
      simpa [Value.text, Value.textAs] using hu
  have hnull : ∀ w ∈ (items.filterMap Value.asString?).map Value.string, w.isNull = false := by
    intro w hw
    obtain ⟨t, -, rfl⟩ := List.mem_map.1 hw
    rfl
  rw [embed_of_inScope hscope hr, htarget, hexpansion, Except.ok_bind,
    Variable.mapM_embeddedText_eq_ok hnull hmark, List.map_map]
  have htext : v.elementText mode ∘ Value.string =
      fun s => if v.quotesElements mode then Text.sqlQuote s else s := by
    funext s
    simp [Variable.elementText, Value.text, Value.textAs]
  rw [htext]
  cases v.quotesElements mode <;> simp

/-- Strings are embedded with quotes if a literal comes first in the test value, unless it is cut at
a comma and looks like no literal then. The test value itself ends where it should. -/
theorem embed_quoted_elements {s rest : String} {items : List Value}
    (htest : v.testValue = "(" ++ Text.sqlQuote s ++ rest ++ ")")
    (hrest : rest = "" ∨ rest.toList.head? = some ',') (hbalanced : Text.IsBalanced rest.toList)
    (hr : v.path.resolve v.expression c.environment loops = .ok r)
    (htarget : r.target = .list items)
    (hitems : ∀ w ∈ items, w = .null ∨ ∃ s, w = .string s ∧ '?' ∉ s.toList)
    (hsome : ∃ s, .string s ∈ items) :
    let texts := items.filterMap Value.asString?
    (∀ extent after, Template.testValue extent (v.testValue.toList ++ after) =
        (v.testValue.toList, after)) ∧
      (c.embed loops v .normal =
          ((c.add (.ofSql ("(" ++ ", ".intercalate (texts.map Text.sqlQuote) ++ ")"))).setEnabled
            true, none) ↔
        Variable.IsQuotedUpToComma s.toList) ∧
      (¬ Variable.IsQuotedUpToComma s.toList →
        c.embed loops v .normal =
          ((c.add (.ofSql ("(" ++ ", ".intercalate texts ++ ")"))).setEnabled true, none)) := by
  intro texts
  have hchars : v.testValue.toList =
      '(' :: (Text.quote s.toList ++ rest.toList ++ [')']) := by
    rw [htest, Text.sqlQuote]
    simp
  have hscope : v.inScope = true := by
    rw [Variable.inScope, hchars]
    rfl
  have hrest : rest.toList = [] ∨ rest.toList.head? = some ',' := by
    rwa [String.toList_eq_nil_iff]
  have hquotes : v.quotesElements .normal = true ↔ Variable.IsQuotedUpToComma s.toList := by
    rw [← Variable.any_isQuoted_firstElement? hrest, Variable.quotesElements, hchars]
    rfl
  have hne : texts ≠ [] := by
    obtain ⟨t, ht⟩ := hsome
    exact List.ne_nil_of_mem (List.mem_filterMap.2 ⟨.string t, ht, rfl⟩)
  have hembed := embed_strings hscope hr htarget hitems hsome .normal
  refine ⟨fun extent after => ?_, ?_, fun hcut => ?_⟩
  · have hinside := Text.isBalanced_quote_append s.toList hbalanced
    have htestValue := Template.testValue_of_isBalanced hinside extent after
    rw [hchars]
    simpa using htestValue
  · rw [← hquotes]
    constructor
    · intro hquoted
      by_contra hplain
      rw [if_neg hplain] at hembed
      have hsql := congrArg (fun p => p.1.added.sql) (hembed.symm.trans hquoted)
      exact listed_map_sqlQuote_ne hne ((String.append_right_inj c.added.sql).1 hsql).symm
    · intro hquoted
      rw [hembed, if_pos hquoted]
      rfl
  · rw [hembed, if_neg (mt hquotes.1 hcut)]
    rfl

/-- A parenthesis in the first literal and one in the second do no harm. -/
theorem embed_quoted_elements_of_parentheses :
    let list : Value := .list [.string "it's", .null, .string "b"]
    let c : Context := .root ⟨[("p", list)], []⟩ {} ""
    let v : Variable := ⟨"p", ⟨.argument "p", []⟩, .none, "('a(', ')')"⟩
    v.testValue = "(" ++ Text.sqlQuote "a(" ++ ", ')'" ++ ")" ∧
      Text.IsBalanced ", ')'".toList ∧
      v.path.resolve v.expression c.environment [] = .ok ⟨list, .list, list, .list, none⟩ ∧
      Variable.IsQuotedUpToComma "a(".toList ∧
      Template.testValue .full (v.testValue.toList ++ " and".toList) =
        (v.testValue.toList, " and".toList) ∧
      c.embed [] v .normal = ((c.add (.ofSql "('it''s', 'b')")).setEnabled true, none) := by
  intro list c v
  have htest : v.testValue = "(" ++ Text.sqlQuote "a(" ++ ", ')'" ++ ")" := by decide
  have hliteral : Text.IsBalanced (Text.quoteMark :: ([')'] ++ Text.quoteMark :: [])) :=
    .literal (by decide) .nil
  have hbalanced : Text.IsBalanced ", ')'".toList :=
    .plain (by decide) (.plain (by decide) hliteral)
  have hr : v.path.resolve v.expression c.environment [] =
      .ok ⟨list, .list, list, .list, none⟩ := by cbv
  have hitems : ∀ w ∈ [Value.string "it's", .null, .string "b"],
      w = .null ∨ ∃ s, w = .string s ∧ '?' ∉ s.toList := by
    simp
  have hembed := embed_quoted_elements htest (.inr (by decide)) hbalanced hr rfl hitems
    ⟨"b", by simp⟩
  have hcut : Variable.IsQuotedUpToComma "a(".toList := by decide
  refine ⟨htest, hbalanced, hr, hcut, ?_, ?_⟩
  · exact hembed.1 .full " and".toList
  · exact hembed.2.1.2 hcut

/-- A comma in the literal takes the quotes from the elements. -/
theorem not_forall_embed_quoted_elements :
    ¬ ∀ (c : Context) (loops : List Loop) (v : Variable) (r : Resolved) (s rest : String)
      (items : List Value), v.testValue = "(" ++ Text.sqlQuote s ++ rest ++ ")" →
      (rest = "" ∨ rest.toList.head? = some ',') → Text.IsBalanced rest.toList →
      v.options.effective (Loop.inheritedLike loops) = none →
      v.path.resolve v.expression c.environment loops = .ok r → r.target = .list items →
      (∀ w ∈ items, w = .null ∨ ∃ s, w = .string s ∧ '?' ∉ s.toList) →
      (∃ s, .string s ∈ items) →
      c.embed loops v .normal =
        ((c.add (.ofSql ("(" ++ ", ".intercalate ((items.filterMap Value.asString?).map
          Text.sqlQuote) ++ ")"))).setEnabled true, none) := by
  intro h
  let list : Value := .list [.string "x"]
  let c : Context := .root ⟨[("p", list)], []⟩ {} ""
  let v : Variable := ⟨"p", ⟨.argument "p", []⟩, .none, "('a,b')"⟩
  have hr : v.path.resolve v.expression c.environment [] =
      .ok ⟨list, .list, list, .list, none⟩ := by cbv
  have hquoted := h c [] v _ "a,b" "" _ (by decide) (.inl rfl) .nil rfl hr rfl (by simp)
    ⟨"x", by simp⟩
  have hembed : c.embed [] v .normal = ((c.add (.ofSql "(x)")).setEnabled true, none) := by cbv
  have hsql := congrArg (fun p => p.1.added.sql) (hembed.symm.trans hquoted)
  exact absurd hsql (by decide)

end Context

end SqlTemplate
