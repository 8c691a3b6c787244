import Mathlib
import SqlTemplate.Proofs.Inlining
import SqlTemplate.Proofs.Quoting

/-!
# Escape clauses

The LIKE option that counts for a variable is its own, or else that of the innermost loop around it
that has one, unless the variable refuses it (`Options.Counts`). It makes a pattern of a string, and
SQL that names the escape character belongs behind a pattern; any other value is left as it is
(`Like.Uses`).

A bound variable, and one that is embedded as plain text, put that SQL behind what they add, and
nothing of the kind behind a value that is no pattern (`Context.escape_clause_of_counts`). A pattern
with comment marks in it is taken for a template, however, and then all that is added is what the
template gives: the wildcards in it are escaped, but nothing says by which character
(`Context.not_forall_escape_clause`).
-/

namespace SqlTemplate

namespace Options

/-- The LIKE option that counts in the given loops, the innermost of which comes first: none if it
is refused, else the option given with the path, else that of the innermost loop that has one. -/
inductive Counts (o : Options) : List Loop → Option Like → Prop where
  | refused {loops : List Loop} (h : o.notLike = true) : Counts o loops .none
  | own {loops : List Loop} {like : Like} (h : o.notLike = false) (hown : o.like = some like) :
      Counts o loops (some like)
  | inherited {inner outer : List Loop} {l : Loop} {like : Like} (h : o.notLike = false)
      (hown : o.like = .none) (hinner : ∀ l ∈ inner, l.like = .none) (hlike : l.like = some like) :
      Counts o (inner ++ l :: outer) (some like)
  | absent {loops : List Loop} (h : o.notLike = false) (hown : o.like = .none)
      (hloops : ∀ l ∈ loops, l.like = .none) : Counts o loops .none

theorem counts_iff {o : Options} {loops : List Loop} {like : Option Like} :
    o.Counts loops like ↔ o.effective (Loop.inheritedLike loops) = like := by
  constructor
  · intro h
    cases h with
    | refused h => simp [effective, h]
    | own h hown => simp [effective, h, hown]
    | @inherited inner outer l like h hown hinner hlike =>
        have hfound : Loop.inheritedLike (inner ++ l :: outer) = some like :=
          List.findSome?_eq_some_iff.2 ⟨inner, l, outer, rfl, hlike, hinner⟩
        simp [effective, h, hown, hfound]
    | absent h hown hloops =>
        have hnone : Loop.inheritedLike loops = .none := List.findSome?_eq_none_iff.2 hloops
        simp [effective, h, hown, hnone]
  · rintro rfl
    cases h : o.notLike with
    | true =>
        rw [effective, if_pos h]
        exact .refused h
    | false =>
        rw [effective, h, if_neg Bool.false_ne_true]
        cases hown : o.like with
        | some like => exact .own h hown
        | none =>
            cases hloops : Loop.inheritedLike loops with
            | none => exact .absent h hown (List.findSome?_eq_none_iff.1 hloops)
            | some like =>
                obtain ⟨inner, l, outer, rfl, hlike, hinner⟩ :=
                  List.findSome?_eq_some_iff.1 hloops
                exact .inherited h hown hinner hlike

end Options

/-- The value that is used in place of another one, and the SQL that belongs behind it: of a string
the pattern and the clause that names the escape character, of anything else nothing. -/
inductive Like.Uses (escape : Char) : Option Like → Value → Value → String → Prop where
  | pattern (like : Like) (s : String) :
      Uses escape (some like) (.string s) (.string (like.apply escape s))
        (" escape '" ++ String.singleton escape ++ "'")
  | unchanged {like : Option Like} {v : Value} (h : like = none ∨ ∀ s, v ≠ .string s) :
      Uses escape like v v ""

/-- What the value at the end of a path is used as, and what stands behind it. -/
theorem Resolved.exists_uses_withLike {r : Resolved} (hnone : r.like = none) (like : Option Like)
    (escape : Char) :
    ∃ clause, Like.Uses escape like r.target (r.withLike like escape).target clause ∧
      ((r.withLike like escape).rear? escape).getD "" = clause := by
  unfold withLike
  split
  next pattern text htarget =>
    rw [htarget]
    exact ⟨_, .pattern pattern text, rfl⟩
  next option _ _ hunchanged =>
    refine ⟨"", .unchanged ?_, by rw [rear?, hnone]; rfl⟩
    cases option with
    | none => exact .inl rfl
    | some pattern => exact .inr fun text htext => hunchanged pattern text rfl htext

namespace Template.Variable

variable {v : Variable} {env : Environment} {loops : List Loop} {like : Option Like}
  {r : Resolved}

/-- What a variable leads to is the value at the end of its path, used under the option that
counts. -/
theorem exists_uses_of_resolve (hcounts : v.options.Counts loops like)
    (h : v.resolve env loops = .ok r) :
    ∃ s clause, v.path.follow env loops = .ok s ∧
      Like.Uses env.config.likeEscape like s.target r.target clause ∧
      r.targetType = s.targetType ∧ embeddedArguments v r = embeddedArguments v s ∧
      ∀ sql, withRear sql r env = sql ++ .ofSql clause := by
  obtain ⟨s, hs, h⟩ := Except.bind_eq_ok_iff.1 h
  rw [Options.counts_iff.1 hcounts] at h
  dsimp only at h
  split at h
  next => cases h
  next =>
    cases h
    have hnone := Path.like_eq_none_of_resolve_eq_ok hs
    obtain ⟨clause, huses, hclause⟩ :=
      s.exists_uses_withLike hnone like env.config.likeEscape
    obtain ⟨target, option, heq⟩ := s.withLike_eq like env.config.likeEscape
    refine ⟨s, clause, Except.mapError_eq_ok_iff.1 hs, huses, ?_, ?_, fun sql => ?_⟩
    · rw [heq]
    · rw [heq]
      rfl
    · rw [withRear, ← hclause]
      cases (s.withLike like env.config.likeEscape).rear? env.config.likeEscape with
      | none => exact (BoundSql.append_empty sql).symm
      | some rear => rfl

variable {mode : EmbeddedMode} {embedding : Embedding} {sql : BoundSql}

/-- A bound variable gives a placeholder and the clause that belongs behind its value. -/
theorem bound_of_counts (hcounts : v.options.Counts loops like) (hscope : v.inScope = false)
    (h : v.bound env loops = .ok sql) :
    ∃ r used clause, v.path.follow env loops = .ok r ∧
      Like.Uses env.config.likeEscape like r.target used clause ∧
      sql = ⟨"?" ++ clause, [used], [r.targetType]⟩ := by
  obtain ⟨r, hr, h⟩ := Except.bind_eq_ok_iff.1 h
  rw [hscope, if_neg Bool.false_ne_true] at h
  obtain ⟨w, hw, h⟩ := Except.bind_eq_ok_iff.1 h
  obtain rfl := eq_of_scalar_eq_ok (Except.mapError_eq_ok_iff.1 hw)
  cases h
  obtain ⟨s, clause, hfollow, huses, htype, -, hrear⟩ := exists_uses_of_resolve hcounts hr
  refine ⟨s, r.target, clause, hfollow, huses, ?_⟩
  rw [hrear, htype]
  rfl

/-- A variable that is embedded as plain text gives the text of its value and the clause that
belongs behind it. -/
theorem embedded_of_plain {clause : String} (hscope : v.inScope = false)
    (hr : v.resolve env loops = .ok r)
    (hplain : ∀ text, r.target = .string text → hasComment text = false)
    (hrear : ∀ sql, withRear sql r env = sql ++ .ofSql clause)
    (h : v.embedded embedding mode env loops = .ok sql) :
    ∃ s, embeddedText (mode == .normal && isQuoted v.testValue.toList) r.target = .ok s ∧
      sql = .ofSql (s ++ clause) := by
  obtain ⟨r', hr', h⟩ := Except.bind_eq_ok_iff.1 h
  obtain rfl : r' = r := Except.ok.inj (hr'.symm.trans hr)
  rw [hscope, if_neg Bool.false_ne_true] at h
  obtain ⟨w, hw, h⟩ := Except.bind_eq_ok_iff.1 h
  obtain rfl := eq_of_scalar_eq_ok (Except.mapError_eq_ok_iff.1 hw)
  split at h
  next text htext =>
    obtain ⟨hstring, hcomment⟩ := Option.filter_eq_some_iff.1 htext
    have hnone := hplain text ((Value.asString?_eq_some_iff _).1 hstring)
    cases hnone.symm.trans hcomment
  next =>
    obtain ⟨s, hs, h⟩ := Except.bind_eq_ok_iff.1 h
    cases h
    refine ⟨s, Except.mapError_eq_ok_iff.1 hs, ?_⟩
    rw [hrear]
    rfl

end Template.Variable

namespace Context

open Template (Variable EmbeddedMode readNodes embeddedArguments evaluateNodes)

variable {c c' : Context} {loops : List Loop} {v : Variable} {mode : EmbeddedMode}
  {like : Option Like}

/-- A bound variable adds what it gives and makes the block count, or it fails and changes
nothing. -/
theorem bind_eq (c : Context) (loops : List Loop) (v : Variable) :
    c.bind loops v =
      match v.bound c.environment loops with
      | .ok sql => ((c.add sql).setEnabled true, none)
      | .error e => (c, some e) := by
  rw [bind, evaluate_singleton]
  exact goOn_ofResult c _

/-- What is added by a variable that has not failed is what it gives. -/
theorem exists_added_eq {result : Except TemplateError BoundSql}
    (h : (match result with
      | .ok sql => ((c.add sql).setEnabled true, none)
      | .error e => (c, some e)) = (c', none)) :
    ∃ sql, result = .ok sql ∧ c'.added = c.added ++ sql := by
  cases result with
  | error e => cases h
  | ok sql =>
      cases h
      exact ⟨sql, rfl, rfl⟩

/-- A bound variable adds a placeholder and the clause that belongs behind its value. -/
theorem added_of_bind (hcounts : v.options.Counts loops like) (hscope : v.inScope = false)
    (h : c.bind loops v = (c', none)) :
    ∃ r used clause, v.path.follow c.environment loops = .ok r ∧
      Like.Uses c.environment.config.likeEscape like r.target used clause ∧
      c'.added = c.added ++ ⟨"?" ++ clause, [used], [r.targetType]⟩ := by
  rw [bind_eq] at h
  obtain ⟨sql, hbound, hadded⟩ := exists_added_eq h
  obtain ⟨r, used, clause, hfollow, huses, rfl⟩ := Variable.bound_of_counts hcounts hscope hbound
  exact ⟨r, used, clause, hfollow, huses, hadded⟩

/-- An embedded variable adds the text of its value and the clause that belongs behind it, or, where
comment marks stand in the value, what the value gives as a template. -/
theorem added_of_embed (hcounts : v.options.Counts loops like) (hscope : v.inScope = false)
    (h : c.embed loops v mode = (c', none)) :
    ∃ r used clause, v.path.follow c.environment loops = .ok r ∧
      Like.Uses c.environment.config.likeEscape like r.target used clause ∧
      ((∀ text, used = .string text → Variable.hasComment text = false) →
        ∃ s, Variable.embeddedText (mode == .normal && Variable.isQuoted v.testValue.toList) used =
            .ok s ∧ c'.added = c.added ++ .ofSql (s ++ clause)) ∧
      ∀ text, used = .string text → Variable.hasComment text = true →
        ∃ ns added, readNodes text (!loops.isEmpty) = .ok ns ∧
          (evaluateNodes (c.environment.nested (embeddedArguments v r) text) loops true
            ns).toResult = .ok added ∧ c'.added = c.added ++ added := by
  have hembed := h
  rw [embed_eq] at h
  obtain ⟨sql, hgiven, hadded⟩ := exists_added_eq h
  obtain ⟨r, hr, -⟩ := Except.bind_eq_ok_iff.1 hgiven
  obtain ⟨s, clause, hfollow, huses, -, harguments, hrear⟩ :=
    Variable.exists_uses_of_resolve hcounts hr
  refine ⟨s, r.target, clause, hfollow, huses, fun hplain => ?_, fun text htext hcomment => ?_⟩
  · obtain ⟨t, ht, rfl⟩ := Variable.embedded_of_plain hscope hr hplain hrear hgiven
    exact ⟨t, ht, hadded⟩
  · have hembeds : v.Embeds c.environment loops r text := by
      refine ⟨hr, ?_, htext⟩
      simp [Variable.embedsText, hscope, htext, Value.asString?, hcomment]
    obtain ⟨levels, ns, added, hlevels, hread, hns, hc⟩ := exists_added_of_embed hembeds hembed
    refine ⟨ns, added, hread, ?_, congrArg Context.added hc⟩
    rw [evaluateNodes, Environment.remainingDepth_nested hlevels, ← harguments]
    exact hns

/-- A scalar variable uses a string as a pattern if a LIKE option counts for it, and any other value
as it is. What it adds ends with the clause that names the escape character if the value is a
pattern, and has no such clause else, whether it is a placeholder or embedded text. Only of a value
with comment marks, pattern or not, nothing is added but what it gives as a template. -/
theorem escape_clause_of_counts (hcounts : v.options.Counts loops like)
    (hscope : v.inScope = false) (c : Context) :
    (∀ c', c.bind loops v = (c', none) →
      ∃ r used clause, v.path.follow c.environment loops = .ok r ∧
        Like.Uses c.environment.config.likeEscape like r.target used clause ∧
        c'.added = c.added ++ ⟨"?" ++ clause, [used], [r.targetType]⟩) ∧
    ∀ mode c', c.embed loops v mode = (c', none) →
      ∃ r used clause, v.path.follow c.environment loops = .ok r ∧
        Like.Uses c.environment.config.likeEscape like r.target used clause ∧
        ((∀ text, used = .string text → Variable.hasComment text = false) →
          ∃ s, Variable.embeddedText (mode == .normal && Variable.isQuoted v.testValue.toList)
              used = .ok s ∧ c'.added = c.added ++ .ofSql (s ++ clause)) ∧
        ∀ text, used = .string text → Variable.hasComment text = true →
          ∃ ns added, readNodes text (!loops.isEmpty) = .ok ns ∧
            (evaluateNodes (c.environment.nested (embeddedArguments v r) text) loops true
              ns).toResult = .ok added ∧ c'.added = c.added ++ added :=
  ⟨fun _ => added_of_bind hcounts hscope, fun _ _ => added_of_embed hcounts hscope⟩

/-- A pattern by the option of the outer one of two loops. -/
theorem escape_clause_of_counts_outer :
    let v : Variable := ⟨"p", ⟨.argument "p", []⟩, .none, "x"⟩
    let inner : Loop := ⟨"q", [.null], 0, none⟩
    let outer : Loop := ⟨"q:likeContain", [.null], 0, some .contains⟩
    let c : Context := .root ⟨[("p", .string "a_b")], []⟩ {} "/*p*/x"
    let c' : Context := (c.add ⟨"? escape '|'", [.string "%a|_b%"], [.string]⟩).setEnabled true
    v.options.Counts [inner, outer] (some .contains) ∧ v.inScope = false ∧
      c.bind [inner, outer] v = (c', none) ∧
      ∃ clause, Like.Uses '|' (some .contains) (.string "a_b") (.string "%a|_b%") clause ∧
        c'.added = c.added ++ ⟨"?" ++ clause, [.string "%a|_b%"], [.string]⟩ := by
  intro v inner outer c c'
  have hcounts : v.options.Counts ([inner] ++ outer :: []) (some .contains) :=
    .inherited rfl rfl (List.forall_mem_singleton.2 rfl) rfl
  have hscope : v.inScope = false := by decide
  have hbind : c.bind [inner, outer] v = (c', none) := by cbv
  obtain ⟨r, used, clause, hfollow, huses, hadded⟩ :=
    (escape_clause_of_counts hcounts hscope c).1 c' hbind
  have hr : v.path.follow c.environment [inner, outer] =
      .ok ⟨.string "a_b", .string, .string "a_b", .string, none⟩ := rfl
  cases hr.symm.trans hfollow
  have hused : [.string "%a|_b%"] = [used] := congrArg BoundSql.values hadded
  cases hused
  exact ⟨hcounts, hscope, hbind, clause, huses, hadded⟩

/-- A pattern may be embedded without the clause that names the escape character. -/
theorem not_forall_escape_clause :
    ¬ ∀ (c c' : Context) (loops : List Loop) (v : Variable) (mode : EmbeddedMode) (like : Like)
        (r : Resolved) (s : String),
      v.options.Counts loops (some like) → v.inScope = false →
      c.embed loops v mode = (c', none) → v.path.follow c.environment loops = .ok r →
      r.target = .string s →
      ∃ sql, c'.added.sql = c.added.sql ++ sql ++
        (" escape '" ++ String.singleton c.environment.config.likeEscape ++ "'") := by
  intro h
  let c : Context := .root ⟨[("p", .string "A_ /* c */")], []⟩ {} "/*$p:likePrefix*/x"
  let v : Variable := ⟨"p:likePrefix", ⟨.argument "p", []⟩, ⟨some .startsWith, false⟩, "x"⟩
  have hembed : c.embed [] v .normal =
      ((c.add (.ofSql "A|_ /* c */%")).setEnabled true, none) := by cbv
  obtain ⟨sql, hsql⟩ := h c _ [] v .normal .startsWith _ "A_ /* c */" (.own rfl rfl) (by decide)
    hembed rfl rfl
  have hlast := congrArg (fun s => s.toList.getLast?) hsql
  simp [c, root, add, setEnabled, BoundSql.ofSql] at hlast

end Context

end SqlTemplate
