import Mathlib
import SqlTemplate.Proofs.EscapeClauses

/-!
# Lists of values

Where the test value is parenthesized a list is expected, and it stands for its elements that are
not null. What a value stands for there, or why it stands for nothing, is said by rules
(`Variable.StandsFor`): there is one rule for each kind of value, and a null is blocked before
anything else is asked (`Variable.standsFor_iff`).

A bound variable adds a placeholder for each of these elements and an embedded one adds their texts,
in the same order. They refuse the same values for the same reasons, and an embedded one refuses
texts with a question mark on top of that (`Context.expand_list`). A LIKE option makes no
difference: it changes nothing but strings, and a string is no list with it or without.
-/

namespace SqlTemplate

namespace Template.Variable

/-- What the value stands for where a list is expected: the elements of a list that are not null, in
order, or the reason why there are none. -/
inductive StandsFor (block : Bool) : Value → Except ErrorKind (List Value) → Prop where
  | blocked (h : block = true) : StandsFor block .null (.error .nullBlocked)
  | null (h : block = false) : StandsFor block .null (.error .listValueNull)
  | notList {w : Value} (hnull : w ≠ .null) (hlist : ∀ items, w ≠ .list items) :
      StandsFor block w (.error (.listExpected w.type.name))
  | empty : StandsFor block (.list []) (.error .emptyList)
  | nullOnly {items : List Value} (hne : items ≠ []) (h : ∀ w ∈ items, w = .null) :
      StandsFor block (.list items) (.error .nullOnlyList)
  | present {items : List Value} {w : Value} (hmem : w ∈ items) (hw : w ≠ .null) :
      StandsFor block (.list items) (.ok (items.filter (!·.isNull)))

/-- The elements that a value stands for where a list is expected. -/
def expansion (block : Bool) (w : Value) : Except ErrorKind (List Value) :=
  if w.isNull && block then .error .nullBlocked else elements w

theorem elements_eq_ok {items : List Value} {w : Value} (hmem : w ∈ items) (hw : w ≠ .null) :
    elements (.list items) = .ok (items.filter (!·.isNull)) := by
  have hpresent : w ∈ items.filter (!·.isNull) := by
    rw [List.mem_filter]
    refine ⟨hmem, ?_⟩
    rw [Bool.not_eq_true', Bool.eq_false_iff, Ne, Value.isNull_iff]
    exact hw
  unfold elements
  split
  next hitems => cases hitems; cases hmem
  next hitems =>
    cases hitems
    split
    next hnil => rw [hnil] at hpresent; cases hpresent
    next => rfl
  next hitems => cases hitems
  next hlist _ => exact absurd rfl (hlist items)

theorem elements_eq_nullOnlyList {items : List Value} (hne : items ≠ [])
    (h : ∀ w ∈ items, w = .null) : elements (.list items) = .error .nullOnlyList := by
  have hfilter : items.filter (!·.isNull) = [] := by
    rw [List.filter_eq_nil_iff]
    intro w hw
    rw [h w hw]
    exact Bool.false_ne_true
  unfold elements
  split
  next hitems => cases hitems; exact absurd rfl hne
  next hitems => cases hitems; rw [hfilter]
  next hitems => cases hitems
  next hlist _ => exact absurd rfl (hlist items)

/-- The rules say for every value one thing that it stands for. -/
theorem standsFor_iff {block : Bool} {w : Value} {outcome : Except ErrorKind (List Value)} :
    StandsFor block w outcome ↔ expansion block w = outcome := by
  constructor
  · intro h
    cases h with
    | blocked h => rw [h]; rfl
    | null h => rw [h]; rfl
    | empty => rfl
    | nullOnly hne h => exact elements_eq_nullOnlyList hne h
    | present hmem hw => exact elements_eq_ok hmem hw
    | notList hnull hlist =>
        cases w with
        | null => exact absurd rfl hnull
        | list items => exact absurd rfl (hlist items)
        | _ => rfl
  · rintro rfl
    cases w with
    | null =>
        cases block with
        | true => exact .blocked rfl
        | false => exact .null rfl
    | list items =>
        by_cases hpresent : ∃ w ∈ items, w ≠ .null
        · obtain ⟨w, hmem, hw⟩ := hpresent
          have hok : expansion block (.list items) = .ok (items.filter (!·.isNull)) :=
            elements_eq_ok hmem hw
          rw [hok]
          exact .present hmem hw
        · have hnull : ∀ w ∈ items, w = .null :=
            fun w hmem => by_contra fun hw => hpresent ⟨w, hmem, hw⟩
          cases items with
          | nil => exact .empty
          | cons w items =>
              have herror : expansion block (.list (w :: items)) = .error .nullOnlyList :=
                elements_eq_nullOnlyList (List.cons_ne_nil w items) hnull
              rw [herror]
              exact .nullOnly (List.cons_ne_nil w items) hnull
    | _ => exact .notList (by simp) (by simp)

/-- A list stands for something if and only if an element of it is not null. -/
theorem exists_expansion_eq_ok_iff {block : Bool} {w : Value} :
    (∃ present, expansion block w = .ok present) ↔
      ∃ items, w = .list items ∧ ∃ u ∈ items, u ≠ .null := by
  constructor
  · rintro ⟨present, h⟩
    cases standsFor_iff.2 h with
    | present hmem hw => exact ⟨_, rfl, _, hmem, hw⟩
  · rintro ⟨items, rfl, u, hmem, hu⟩
    exact ⟨_, elements_eq_ok hmem hu⟩

variable {v : Variable} {env : Environment} {loops : List Loop} {r : Resolved}

/-- A LIKE option changes nothing about what a value stands for. -/
theorem expansion_withLike (r : Resolved) (option : Option Like) (escape : Char) (block : Bool) :
    expansion block (r.withLike option escape).target = expansion block r.target := by
  unfold Resolved.withLike
  split
  next htarget => rw [htarget]; rfl
  next => rfl

/-- What a variable does with the elements of a list, by what its value stands for. -/
theorem resolve_bind_elements {α : Type} (hr : v.path.resolve v.expression env loops = .ok r)
    (f : List Value → Except TemplateError α) :
    (v.resolve env loops >>= fun s => (elements s.target).mapError (v.fail env) >>= f) =
      (expansion env.config.blockNull r.target).mapError (v.fail env) >>= f := by
  rw [← expansion_withLike r (v.options.effective (Loop.inheritedLike loops))
    env.config.likeEscape, resolve, hr, expansion]
  dsimp only [bind, Except.bind]
  cases (r.withLike (v.options.effective (Loop.inheritedLike loops))
    env.config.likeEscape).target.isNull && env.config.blockNull with
  | true => rfl
  | false => rfl

/-- A bound variable stands for a list of placeholders. -/
theorem bound_of_inScope (hscope : v.inScope = true)
    (hr : v.path.resolve v.expression env loops = .ok r) :
    v.bound env loops = (do
      let present ← (expansion env.config.blockNull r.target).mapError (v.fail env)
      return .ofValues present) := by
  rw [← resolve_bind_elements hr, bound, hscope]
  rfl

/-- Whether the elements of the list are quoted: the first element of the test value is, and the
test value is replaced. -/
def quotesElements (v : Variable) (mode : EmbeddedMode) : Bool :=
  mode != .replaceOnly && (firstElement? v.testValue.toList).any isQuoted

/-- The text that is embedded for an element of the list. -/
def elementText (v : Variable) (mode : EmbeddedMode) (w : Value) : String :=
  if v.quotesElements mode then Text.sqlQuote w.text else w.text

/-- An embedded variable stands for a list of texts. -/
theorem embedded_of_inScope (hscope : v.inScope = true)
    (hr : v.path.resolve v.expression env loops = .ok r) (embedding : Embedding)
    (mode : EmbeddedMode) :
    v.embedded embedding mode env loops = (do
      let present ← (expansion env.config.blockNull r.target).mapError (v.fail env)
      let texts ← (present.mapM (embeddedText (v.quotesElements mode))).mapError (v.fail env)
      return .ofSql (BoundSql.listed texts)) := by
  rw [← resolve_bind_elements hr, embedded, hscope]
  rfl

theorem embeddedText_of_not_mem {w : Value} (hnull : w.isNull = false)
    (hmark : '?' ∉ w.text.toList) (mode : EmbeddedMode) :
    embeddedText (v.quotesElements mode) w = .ok (v.elementText mode w) := by
  rw [elementText]
  cases v.quotesElements mode <;> simp [embeddedText, hmark, hnull]

/-- The elements are embedded if there is no question mark in them. -/
theorem mapM_embeddedText_eq_ok {ws : List Value} (hnull : ∀ w ∈ ws, w.isNull = false)
    (hmark : ∀ w ∈ ws, '?' ∉ w.text.toList) (mode : EmbeddedMode) :
    ws.mapM (embeddedText (v.quotesElements mode)) = .ok (ws.map (v.elementText mode)) := by
  induction ws with
  | nil => rfl
  | cons w ws ih =>
      rw [List.forall_mem_cons] at hnull hmark
      rw [List.mapM_cons, embeddedText_of_not_mem hnull.1 hmark.1, ih hnull.2 hmark.2]
      rfl

theorem StandsFor.isNull_eq_false {block : Bool} {w : Value} {present : List Value}
    (h : StandsFor block w (.ok present)) : ∀ u ∈ present, u.isNull = false := by
  cases h with
  | present =>
      intro u hu
      simpa using (List.mem_filter.1 hu).2

end Template.Variable

namespace Context

open Template (Variable EmbeddedMode)
open Template.Variable (StandsFor standsFor_iff)

variable {c : Context} {loops : List Loop} {v : Variable} {r : Resolved}

/-- A bound variable adds the elements that its value stands for, or it fails as its value does. -/
theorem bind_of_inScope (hscope : v.inScope = true)
    (hr : v.path.resolve v.expression c.environment loops = .ok r) :
    c.bind loops v =
      match Variable.expansion c.environment.config.blockNull r.target with
      | .ok present => ((c.add (.ofValues present)).setEnabled true, none)
      | .error kind => (c, some (v.fail c.environment kind)) := by
  rw [bind_eq, Variable.bound_of_inScope hscope hr]
  cases Variable.expansion c.environment.config.blockNull r.target with
  | ok present => rfl
  | error kind => rfl

/-- An embedded variable adds the texts of the elements that its value stands for, or it fails as
its value or one of the elements does. -/
theorem embed_of_inScope (hscope : v.inScope = true)
    (hr : v.path.resolve v.expression c.environment loops = .ok r) (mode : EmbeddedMode) :
    c.embed loops v mode =
      match Variable.expansion c.environment.config.blockNull r.target >>= fun present =>
        present.mapM (Variable.embeddedText (v.quotesElements mode)) with
      | .ok texts => ((c.add (.ofSql (BoundSql.listed texts))).setEnabled true, none)
      | .error kind => (c, some (v.fail c.environment kind)) := by
  rw [embed_eq, Variable.embedded_of_inScope hscope hr]
  cases Variable.expansion c.environment.config.blockNull r.target with
  | error kind => rfl
  | ok present =>
      simp only [Except.mapError, Except.ok_bind]
      cases present.mapM (Variable.embeddedText (v.quotesElements mode)) with
      | error kind => rfl
      | ok texts => rfl

/-- Where a list is expected, a bound variable adds a placeholder for each element that is not null,
and fails where there is none. An embedded variable adds their texts; it fails for the same reasons,
and at the first text with a question mark. -/
theorem expand_list (hscope : v.inScope = true)
    (hr : v.path.resolve v.expression c.environment loops = .ok r) :
    let block := c.environment.config.blockNull
    ((∃ c', c.bind loops v = (c', none)) ↔
        ∃ items, r.target = .list items ∧ ∃ w ∈ items, w ≠ .null) ∧
      (∃! outcome, StandsFor block r.target outcome) ∧
      (∀ kind, StandsFor block r.target (.error kind) →
        c.bind loops v = (c, some (v.fail c.environment kind)) ∧
          ∀ mode, c.embed loops v mode = (c, some (v.fail c.environment kind))) ∧
      ∀ present, StandsFor block r.target (.ok present) →
        c.bind loops v =
            ((c.add ⟨"(" ++ ", ".intercalate (List.replicate present.length "?") ++ ")", present,
              present.map Value.type⟩).setEnabled true, none) ∧
          ∀ mode,
            (∀ before w after, present = before ++ w :: after →
              (∀ u ∈ before, '?' ∉ u.text.toList) → '?' ∈ w.text.toList →
              c.embed loops v mode =
                (c, some (v.fail c.environment (.bindSymbolInEmbedded w.text)))) ∧
            ((∀ w ∈ present, '?' ∉ w.text.toList) →
              c.embed loops v mode =
                ((c.add ⟨"(" ++ ", ".intercalate (present.map (v.elementText mode)) ++ ")", [],
                  []⟩).setEnabled true, none)) := by
  intro block
  have hbind := bind_of_inScope hscope hr
  have hembed := embed_of_inScope hscope hr
  refine ⟨?_, ⟨_, standsFor_iff.2 rfl, fun o ho => (standsFor_iff.1 ho).symm⟩, ?_, ?_⟩
  · rw [← @Variable.exists_expansion_eq_ok_iff block, hbind]
    cases Variable.expansion block r.target with
    | ok present => simp
    | error kind => simp
  · intro kind h
    have hkind : Variable.expansion c.environment.config.blockNull r.target = .error kind :=
      standsFor_iff.1 h
    rw [hbind, hkind]
    refine ⟨rfl, fun mode => ?_⟩
    rw [hembed, hkind]
    rfl
  · intro present h
    have hpresent : Variable.expansion c.environment.config.blockNull r.target = .ok present :=
      standsFor_iff.1 h
    refine ⟨?_, fun mode => ⟨fun before w after hsplit hbefore hw => ?_, fun hmark => ?_⟩⟩
    · rw [hbind, hpresent, ← List.map_const']
      rfl
    · have hrefused : (before ++ w :: after).mapM (Variable.embeddedText (v.quotesElements mode)) =
          .error (.bindSymbolInEmbedded w.text) :=
        Variable.mapM_embeddedText_eq_error hbefore hw _
      rw [hembed, hpresent, hsplit, Except.ok_bind, hrefused]
    · have htexts := Variable.mapM_embeddedText_eq_ok (v := v) h.isNull_eq_false hmark mode
      rw [hembed, hpresent, Except.ok_bind, htexts]
      rfl

/-- Two of four elements are left; the first element of the test value is quoted. With a question
mark in one of them the list can be bound but not embedded. -/
theorem expand_list_mixed :
    let list : Value := .list [.null, .string "it's", .null, .int32 7]
    let marked : Value := .list [.int32 7, .string "a?", .string "b?"]
    let c : Context := .root ⟨[("p", list), ("q", marked)], []⟩ {} ""
    let v : Variable := ⟨"p", ⟨.argument "p", []⟩, .none, "('a', 1)"⟩
    let u : Variable := ⟨"q", ⟨.argument "q", []⟩, .none, "('a', 1)"⟩
    (v.inScope = true ∧
        v.path.resolve v.expression c.environment [] = .ok ⟨list, .list, list, .list, none⟩ ∧
        c.bind [] v = ((c.add ⟨"(?, ?)", [.string "it's", .int32 7],
          [.string, .integer]⟩).setEnabled true, none) ∧
        c.embed [] v .normal = ((c.add (.ofSql "('it''s', '7')")).setEnabled true, none) ∧
        c.embed [] v .replaceOnly = ((c.add (.ofSql "(it's, 7)")).setEnabled true, none)) ∧
      u.inScope = true ∧
        u.path.resolve u.expression c.environment [] = .ok ⟨marked, .list, marked, .list, none⟩ ∧
        c.embed [] u .normal =
          (c, some (u.fail c.environment (.bindSymbolInEmbedded "a?"))) := by
  intro list marked c v u
  have hlist : StandsFor false list (.ok [.string "it's", .int32 7]) :=
    .present (w := .int32 7) (by simp) (by simp)
  have hmarked : StandsFor false marked (.ok [.int32 7, .string "a?", .string "b?"]) :=
    .present (w := .int32 7) (by simp) (by simp)
  have hscope : v.inScope = true ∧ u.inScope = true := by decide
  have hr : v.path.resolve v.expression c.environment [] =
      .ok ⟨list, .list, list, .list, none⟩ := rfl
  have hs : u.path.resolve u.expression c.environment [] =
      .ok ⟨marked, .list, marked, .list, none⟩ := rfl
  have htexts : [Value.string "it's", .int32 7].map (v.elementText .normal) =
      ["'it''s'", "'7'"] := by decide
  have hplain : [Value.string "it's", .int32 7].map (v.elementText .replaceOnly) =
      ["it's", "7"] := by decide
  obtain ⟨hbind, hembed⟩ := (expand_list hscope.1 hr).2.2.2 _ hlist
  have hnormal := (hembed .normal).2 (by decide)
  have hreplace := (hembed .replaceOnly).2 (by decide)
  rw [htexts] at hnormal
  rw [hplain] at hreplace
  have hrefused := (((expand_list hscope.2 hs).2.2.2 _ hmarked).2 .normal).1 [.int32 7]
    (.string "a?") [.string "b?"] rfl (by decide) (by decide)
  exact ⟨⟨hscope.1, hr, hbind, hnormal, hreplace⟩, hscope.2, hs, hrefused⟩

end Context

end SqlTemplate
