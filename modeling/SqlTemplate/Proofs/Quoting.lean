import SqlTemplate.Proofs.Embedding
import SqlTemplate.Proofs.PlainText

/-!
# Quoted values

A variable with a quoted test value stands for a string literal. Its value is quoted, with
every quote mark in it doubled, and what is quoted is one literal, whatever stands behind
it (`Text.literalTail_double_append`).

A value with comment marks in it is not quoted, however. It is taken for a template even if
no directive is found in it; then it is added as it is, without quote marks, or refused for
faults that a template may have. `Context.embed_quoted` says of every value without
directives what becomes of it, and that it is quoted if and only if it has no comment marks.
-/

namespace SqlTemplate

namespace Text

theorem length_le_length_double (s : List Char) : s.length ≤ (double s).length := by
  induction s with
  | nil => exact Nat.le_refl 0
  | cons c s ih =>
      rw [double]
      split
      · rw [List.length_cons, List.length_cons, List.length_cons]
        omega
      · rw [List.length_cons, List.length_cons]
        omega

theorem length_lt_length_sqlQuote (s : String) : s.length < (sqlQuote s).length := by
  rw [sqlQuote, ← String.length_toList, ← String.length_toList, String.toList_ofList, quote,
    List.length_cons, List.length_append, List.length_singleton]
  have := length_le_length_double s.toList
  omega

/-- A quoted string is never the string itself. -/
theorem sqlQuote_ne (s : String) : sqlQuote s ≠ s := by
  intro h
  have hlength := length_lt_length_sqlQuote s
  rw [h] at hlength
  exact Nat.lt_irrefl _ hlength

/-- The closing mark of a quoted text is found, unless a quote mark stands behind it. -/
theorem literalTail_double_append {s rest : List Char} (h : rest.head? ≠ some quoteMark) :
    literalTail (double s ++ quoteMark :: rest) = (double s ++ [quoteMark], rest) := by
  induction s with
  | nil =>
      cases rest with
      | nil => rfl
      | cons d rest =>
          have hd : d ≠ quoteMark := by simpa using h
          rw [double, List.nil_append, literalTail, if_pos rfl, if_neg hd]
          rfl
  | cons c s ih =>
      by_cases hc : c = quoteMark
      · rw [double, if_pos hc, List.cons_append, List.cons_append, literalTail, if_pos rfl,
          if_pos rfl, ih]
        rfl
      · rw [double, if_neg hc, List.cons_append]
        cases hs : double s ++ quoteMark :: rest with
        | nil => simp at hs
        | cons d t =>
            rw [literalTail, if_neg hc, ← hs, ih]
            rfl

end Text

namespace Template

/-- A parenthesized test value is not quoted. -/
theorem Variable.inScope_eq_false_of_isQuoted {v : Variable}
    (h : isQuoted v.testValue.toList = true) : v.inScope = false := by
  have hhead : (Text.trimStart v.testValue.toList).head? = some Text.quoteMark := by
    obtain ⟨t, ht, -⟩ := Text.trimEnd_append_blanks (Text.trimStart v.testValue.toList)
    rw [isQuoted, Text.trim] at h
    split at h
    next c d s hs =>
      rw [Bool.and_eq_true, beq_iff_eq] at h
      rw [← ht, hs, h.1]
      rfl
    next => cases h
  rw [inScope, hhead]
  rfl

/-- A plain text is embedded as it is, unless it has a fault or may not be embedded. -/
theorem embedding_of_isPlain {text : String} (h : IsPlain text) (levels : Nat)
    (env : Environment) (loops : List Loop) (v : Variable) (r : Resolved) :
    embedding levels env loops v r text =
      match levels, (Lexeme.readAll (.ofText text)).2 with
      | 0, _ => .error (v.fail env (.dynamicDepthExceeded env.config.maxDynamicDepth))
      | _ + 1, some kind => .error (.structural kind "" text)
      | _ + 1, none => .ok (.ofSql text) := by
  cases levels with
  | zero => rfl
  | succ levels =>
      rw [embedding, embedText, readNodes_of_isPlain h]
      cases hfault : (Lexeme.readAll (.ofText text)).2 with
      | some kind => rfl
      | none =>
          have hsource : (Lexeme.readAll (.ofText text)).1.flatMap Lexeme.source =
              text.toList := Lexeme.readAll_lossless hfault
          dsimp only [bind, Except.bind]
          rw [evaluateWithin_eq_evaluateAll, evaluateAll_textNodes, hsource,
            String.ofList_toList]
          rfl

end Template

theorem Path.like_eq_none_of_resolve_eq_ok {p : Path} {expression : String}
    {env : Environment} {loops : List Loop} {r : Resolved}
    (h : p.resolve expression env loops = .ok r) : r.like = none := by
  obtain ⟨start, -, h⟩ := Except.bind_eq_ok_iff.1 (Except.mapError_eq_ok_iff.1 h)
  obtain ⟨w, -, h⟩ := Except.bind_eq_ok_iff.1 h
  cases h
  rfl

namespace Template.Variable

variable {v : Variable} {env : Environment} {loops : List Loop} {r : Resolved} {s : String}

/-- What a variable with a quoted test value gives, if its value is a string. -/
theorem embedded_of_isQuoted (hquoted : isQuoted v.testValue.toList = true)
    (hlike : v.options.effective (Loop.inheritedLike loops) = none)
    (hr : v.path.resolve v.expression env loops = .ok r) (htarget : r.target = .string s)
    (hmark : '?' ∉ s.toList) (embedding : Embedding) :
    v.embedded embedding .normal env loops =
      if hasComment s then embedding loops v r s else .ok (.ofSql (Text.sqlQuote s)) := by
  have hresolve : v.resolve env loops = .ok r := by
    simp [resolve, hr, hlike, Resolved.withLike, htarget, Value.isNull, bind, Except.bind,
      pure, Except.pure]
  have hrear : ∀ sql, withRear sql r env = sql := by
    intro sql
    simp [withRear, Resolved.rear?, Path.like_eq_none_of_resolve_eq_ok hr]
  have hscope := inScope_eq_false_of_isQuoted hquoted
  have htext : embeddedText true (.string s) = .ok (Text.sqlQuote s) := by
    have hs : (Value.string s).text = s := by simp [Value.text, Value.textAs]
    simp [embeddedText, hs, Value.isNull, hmark]
  cases hcomment : hasComment s with
  | true =>
      simp [embedded, hresolve, hscope, htarget, scalar, Value.asString?, Option.filter_some,
        hcomment, bind, Except.bind, Except.mapError]
  | false =>
      simp [embedded, hresolve, hscope, htarget, scalar, Value.asString?, Option.filter_some,
        hcomment, hquoted, htext, hrear, bind, Except.bind, Except.mapError, pure, Except.pure]

end Template.Variable

namespace Context

open Template (Variable IsPlain Lexeme)

/-- A value without directives is quoted if and only if it has no comment marks. With them
it is added as it is, or it is refused as a template is. -/
theorem embed_quoted {c : Context} {loops : List Loop} {v : Variable} {r : Resolved}
    {s : String} (hquoted : Variable.isQuoted v.testValue.toList = true)
    (hlike : v.options.effective (Loop.inheritedLike loops) = none)
    (hr : v.path.resolve v.expression c.environment loops = .ok r)
    (htarget : r.target = .string s) (hmark : '?' ∉ s.toList) (hplain : IsPlain s) :
    (c.embed loops v .normal = ((c.add (.ofSql (Text.sqlQuote s))).setEnabled true, none) ↔
      Variable.hasComment s = false) ∧
    (Variable.hasComment s = true →
      c.embed loops v .normal =
        match c.environment.remainingDepth, (Lexeme.readAll (.ofText s)).2 with
        | 0, _ => (c, some (v.fail c.environment
            (.dynamicDepthExceeded c.environment.config.maxDynamicDepth)))
        | _ + 1, some kind => (c, some (.structural kind "" s))
        | _ + 1, none => ((c.add (.ofSql s)).setEnabled true, none)) := by
  have hembed := embed_eq c loops v .normal
  rw [Variable.embedded_of_isQuoted hquoted hlike hr htarget hmark,
    Template.embedding_of_isPlain hplain] at hembed
  cases hcomment : Variable.hasComment s with
  | false =>
      rw [hcomment, if_neg Bool.false_ne_true] at hembed
      exact ⟨⟨fun _ => rfl, fun _ => hembed⟩, fun h => nomatch h⟩
  | true =>
      rw [hcomment, if_pos rfl] at hembed
      have hne : (c.add (.ofSql s)).setEnabled true ≠
          (c.add (.ofSql (Text.sqlQuote s))).setEnabled true := by
        intro h
        have hsql : c.added.sql ++ s = c.added.sql ++ Text.sqlQuote s :=
          congrArg (fun c => c.added.sql) h
        exact Text.sqlQuote_ne s ((String.append_right_inj c.added.sql).1 hsql).symm
      cases hdepth : c.environment.remainingDepth with
      | zero => simp [hembed, hdepth]
      | succ levels =>
          cases hfault : (Lexeme.readAll (.ofText s)).2 with
          | some kind => simp [hembed, hdepth, hfault]
          | none => simpa [hembed, hdepth, hfault] using hne

/-- Of a value with a quote mark and a comment no quote mark is doubled. -/
theorem embed_quoted_of_comment :
    let s := "it's /* x */"
    let c : Context := .root ⟨[("p", .string s)], []⟩ {} "/*$p*/'x'"
    let v : Variable := ⟨"p", ⟨.argument "p", []⟩, .none, "'x'"⟩
    Variable.isQuoted v.testValue.toList = true ∧
      v.options.effective (Loop.inheritedLike []) = none ∧
      v.path.resolve v.expression c.environment [] =
        .ok ⟨.string s, .string, .string s, .string, none⟩ ∧
      '?' ∉ s.toList ∧ IsPlain s ∧ Variable.hasComment s = true ∧
      c.embed [] v .normal = ((c.add (.ofSql s)).setEnabled true, none) := by
  intro s c v
  have hquoted : Variable.isQuoted v.testValue.toList = true := by decide
  have hlike : v.options.effective (Loop.inheritedLike []) = none := rfl
  have hr : v.path.resolve v.expression c.environment [] =
      .ok ⟨.string s, .string, .string s, .string, none⟩ := by cbv
  have hmark : '?' ∉ s.toList := by decide
  have hplain : IsPlain s := Template.isPlain_of_comments_eq_nil (by cbv)
  have hcomment : Variable.hasComment s = true := by decide
  have hfault : (Lexeme.readAll (.ofText s)).2 = none := by cbv
  have hembed := (embed_quoted hquoted hlike hr rfl hmark hplain).2 hcomment
  rw [hfault] at hembed
  exact ⟨hquoted, hlike, hr, hmark, hplain, hcomment, hembed⟩

/-- A value without directives may be embedded without being quoted. -/
theorem not_forall_embed_quoted :
    ¬ ∀ (c : Context) (loops : List Loop) (v : Variable) (r : Resolved) (s : String),
      Variable.isQuoted v.testValue.toList = true →
      v.options.effective (Loop.inheritedLike loops) = none →
      v.path.resolve v.expression c.environment loops = .ok r → r.target = .string s →
      '?' ∉ s.toList → IsPlain s →
      c.embed loops v .normal = ((c.add (.ofSql (Text.sqlQuote s))).setEnabled true, none) := by
  intro h
  let s := "it's /* x */"
  let c : Context := .root ⟨[("p", .string s)], []⟩ {} "/*$p*/'x'"
  let v : Variable := ⟨"p", ⟨.argument "p", []⟩, .none, "'x'"⟩
  have hr : v.path.resolve v.expression c.environment [] =
      .ok ⟨.string s, .string, .string s, .string, none⟩ := by cbv
  have hplain : IsPlain s := Template.isPlain_of_comments_eq_nil (by cbv)
  have hquoted := h c [] v _ s (by decide) rfl hr rfl (by decide) hplain
  have hembed : c.embed [] v .normal = ((c.add (.ofSql s)).setEnabled true, none) := by cbv
  have hsql := congrArg (fun p => p.1.added.sql) (hembed.symm.trans hquoted)
  exact absurd hsql (by decide)

end Context

end SqlTemplate
