import Mathlib
import SqlTemplate.Proofs.Result
import SqlTemplate.Template.Reading

/-!
# The grammar of templates

`Source.Says` lists what a comment can say, by its directive, and `Source.Rejects` why it cannot be
read. `Source.Reads` says which nodes stand at the start of some lexemes, by rules: one for each way
in which a sequence of nodes can go on. What is read of a comment is on the first list
(`Source.item_eq_ok_iff`) or else on the second one (`Source.item_eq_error_iff`), and the descent
that reads a template finds what the rules allow and nothing else (`readNodes_eq_ok_iff`). Where it
stops, there is a rule for that too (`Source.Fails`). So what holds of all comments is proved by
cases on the lists, and what holds of all templates by induction on the rules.
-/

namespace SqlTemplate.Template

/-- A block ends with its end, if there is no second part to come. -/
theorem Closing.eq_endMark_of_closes {c : Closing} {b : OpenBlock}
    (h : c.closes (some b) = true) (helse : b.allowsElse = true → c ≠ .elseMark) :
    c = .endMark := by
  cases c with
  | endMark => rfl
  | stop => cases h
  | elseMark => exact absurd rfl (helse h)

namespace Source

/-- What a comment can say, for each directive that it can hold. -/
inductive Says (s : Source) (inLoop : Bool) (p : Place) (testValue : List Char) :
    Directive → Item → Prop where
  | plain : Says s inLoop p testValue .plain
      (.node (.text (String.ofList (commentText p.body))))
  | bind {e v} (hv : s.readVariable inLoop p e testValue = .ok v) :
      Says s inLoop p testValue (.bind e) (.node (.bind v))
  | embedded {mode e v} (hv : s.readVariable inLoop p e testValue = .ok v) :
      Says s inLoop p testValue (.embedded mode e) (.node (.embedded v mode))
  | ifMark {e condition} (hcondition : s.readCondition inLoop e = .ok condition) :
      Says s inLoop p testValue (.ifMark e) (.opening (.ifBlock condition))
  | forMark {e path options} (hpath : s.readPath inLoop p e = .ok (path, options))
      (hlike : options.notLike = false) :
      Says s inLoop p testValue (.forMark e)
        (.opening (.forBlock (String.ofList (Text.trim e)) path options))
  | beginMark : Says s inLoop p testValue .beginMark (.opening .block)
  | firstMark (hloop : inLoop = true) : Says s inLoop p testValue .firstMark (.opening .first)
  | lastMark (hloop : inLoop = true) : Says s inLoop p testValue .lastMark (.opening .last)
  | nextMark {t u} (hloop : inLoop = true) (hquoted : quoted? t = some u) :
      Says s inLoop p testValue (.nextMark t) (.node (.separator (String.ofList u)))
  | elseMark : Says s inLoop p testValue .elseMark (.closing .elseMark)
  | endMark : Says s inLoop p testValue .endMark (.closing .endMark)

/-- Why a comment cannot be read, for each directive that it can hold. -/
inductive Rejects (s : Source) (inLoop : Bool) (p : Place) (testValue : List Char) :
    Directive → TemplateError → Prop where
  | bind {operand e} (hv : s.readVariable inLoop p operand testValue = .error e) :
      Rejects s inLoop p testValue (.bind operand) e
  | embedded {mode operand e} (hv : s.readVariable inLoop p operand testValue = .error e) :
      Rejects s inLoop p testValue (.embedded mode operand) e
  | ifMark {operand e} (hcondition : s.readCondition inLoop operand = .error e) :
      Rejects s inLoop p testValue (.ifMark operand) e
  | forMark {operand e} (hpath : s.readPath inLoop p operand = .error e) :
      Rejects s inLoop p testValue (.forMark operand) e
  | notLike {operand path options} (hpath : s.readPath inLoop p operand = .ok (path, options))
      (hlike : options.notLike = true) :
      Rejects s inLoop p testValue (.forMark operand)
        (s.malformed p "notLike cannot be used on a FOR source")
  | firstMark (hloop : inLoop = false) : Rejects s inLoop p testValue .firstMark (s.unexpected p)
  | lastMark (hloop : inLoop = false) : Rejects s inLoop p testValue .lastMark (s.unexpected p)
  | nextMark {t} (hloop : inLoop = false) :
      Rejects s inLoop p testValue (.nextMark t) (s.unexpected p)
  | unquoted {t} (hloop : inLoop = true) (hquoted : quoted? t = none) :
      Rejects s inLoop p testValue (.nextMark t) (s.malformed p "NEXT needs a quoted text")

/-- Some lexemes start with the nodes and then the mark, and the others are left. -/
inductive Reads (s : Source) :
    Bool → List Lexeme → List Node → Closing → List Lexeme → Prop where
  | stop {inLoop : Bool} (hfault : s.fault = none) : Reads s inLoop [] [] .stop []
  | text {inLoop : Bool} {t : String} {ls ns c rest} (hrest : Reads s inLoop ls ns c rest) :
      Reads s inLoop (.text t :: ls) (.text t :: ns) c rest
  | node {inLoop : Bool} {body start testValue n ls ns c rest}
      (hitem : s.item inLoop ⟨body, start⟩ testValue = .ok (.node n))
      (hrest : Reads s inLoop ls ns c rest) :
      Reads s inLoop (.comment body start testValue :: ls) (n :: ns) c rest
  | closing {inLoop : Bool} {body start testValue c ls}
      (hitem : s.item inLoop ⟨body, start⟩ testValue = .ok (.closing c)) :
      Reads s inLoop (.comment body start testValue :: ls) [] c ls
  | block {inLoop : Bool} {body start testValue o part mid ls ns c rest}
      (hitem : s.item inLoop ⟨body, start⟩ testValue = .ok (.opening o))
      (hpart : Reads s (inLoop || o.isLoop) ls part .endMark mid)
      (hrest : Reads s inLoop mid ns c rest) :
      Reads s inLoop (.comment body start testValue :: ls) (o.node part none :: ns) c rest
  | parts {inLoop : Bool} {body start testValue o part mid second mid' ls ns c rest}
      (hitem : s.item inLoop ⟨body, start⟩ testValue = .ok (.opening o))
      (hallows : o.allowsElse = true)
      (hpart : Reads s (inLoop || o.isLoop) ls part .elseMark mid)
      (hsecond : Reads s (inLoop || o.isLoop) mid second .endMark mid')
      (hrest : Reads s inLoop mid' ns c rest) :
      Reads s inLoop (.comment body start testValue :: ls) (o.node part (some second) :: ns) c
        rest

/-- The descent through some lexemes, in a block or outside of blocks, stops at the error. -/
inductive Fails (s : Source) :
    Bool → Option OpenBlock → List Lexeme → TemplateError → Prop where
  | fault {inLoop : Bool} {block kind} (hfault : s.fault = some kind) :
      Fails s inLoop block [] (s.fail kind [])
  | unclosed {inLoop : Bool} {b} (hfault : s.fault = none) :
      Fails s inLoop (some b) []
        (s.fail (.unclosedBlock b.place.directive b.place.start.line b.place.start.column)
          (Text.trim b.place.body))
  | text {inLoop : Bool} {block t ls e} (hrest : Fails s inLoop block ls e) :
      Fails s inLoop block (.text t :: ls) e
  | item {inLoop : Bool} {block body start testValue ls e}
      (hitem : s.item inLoop ⟨body, start⟩ testValue = .error e) :
      Fails s inLoop block (.comment body start testValue :: ls) e
  | node {inLoop : Bool} {block body start testValue n ls e}
      (hitem : s.item inLoop ⟨body, start⟩ testValue = .ok (.node n))
      (hrest : Fails s inLoop block ls e) :
      Fails s inLoop block (.comment body start testValue :: ls) e
  | unexpected {inLoop : Bool} {block body start testValue c ls}
      (hitem : s.item inLoop ⟨body, start⟩ testValue = .ok (.closing c))
      (hcloses : c.closes block = false) :
      Fails s inLoop block (.comment body start testValue :: ls) (s.unexpected ⟨body, start⟩)
  | part {inLoop : Bool} {block body start testValue o ls e}
      (hitem : s.item inLoop ⟨body, start⟩ testValue = .ok (.opening o))
      (hpart : Fails s (inLoop || o.isLoop) (some ⟨⟨body, start⟩, o.allowsElse⟩) ls e) :
      Fails s inLoop block (.comment body start testValue :: ls) e
  | second {inLoop : Bool} {block body start testValue o part mid ls e}
      (hitem : s.item inLoop ⟨body, start⟩ testValue = .ok (.opening o))
      (hallows : o.allowsElse = true)
      (hpart : Reads s (inLoop || o.isLoop) ls part .elseMark mid)
      (hsecond : Fails s (inLoop || o.isLoop) (some ⟨⟨body, start⟩, false⟩) mid e) :
      Fails s inLoop block (.comment body start testValue :: ls) e
  | behindBlock {inLoop : Bool} {block body start testValue o part mid ls e}
      (hitem : s.item inLoop ⟨body, start⟩ testValue = .ok (.opening o))
      (hpart : Reads s (inLoop || o.isLoop) ls part .endMark mid)
      (hrest : Fails s inLoop block mid e) :
      Fails s inLoop block (.comment body start testValue :: ls) e
  | behindParts {inLoop : Bool} {block body start testValue o part mid second mid' ls e}
      (hitem : s.item inLoop ⟨body, start⟩ testValue = .ok (.opening o))
      (hallows : o.allowsElse = true)
      (hpart : Reads s (inLoop || o.isLoop) ls part .elseMark mid)
      (hsecond : Reads s (inLoop || o.isLoop) mid second .endMark mid')
      (hrest : Fails s inLoop block mid' e) :
      Fails s inLoop block (.comment body start testValue :: ls) e

variable {s : Source}

section Readings

variable {inLoop : Bool} {p : Place} {e testValue : List Char}

/-- What has a meaning in a loop only is refused outside of loops and nowhere else. -/
theorem not_refused_iff {inLoop needsLoop : Bool} :
    ¬ (!inLoop && needsLoop) = true ↔ (needsLoop = true → inLoop = true) := by
  cases inLoop <;> cases needsLoop <;> decide

/-- A path is read or not, whatever the source and the place are. -/
theorem readPath_eq_ok_iff {path : Path} {options : Options} :
    s.readPath inLoop p e = .ok (path, options) ↔
      ∃ front, Options.split (String.ofList e) = .ok (front, options) ∧
        Path.ofText front = .ok path ∧ (path.usesLoop = true → inLoop = true) ∧
          (options.notLike = true → inLoop = true) := by
  simp only [readPath, Except.bind_eq_ok_iff, Except.mapError_eq_ok_iff, Prod.exists]
  constructor
  · rintro ⟨front, o, hsplit, q, hq, h⟩
    split at h
    next => cases h
    next hloop =>
      split at h
      next => cases h
      next hlike =>
        cases h
        exact ⟨front, hsplit, hq, not_refused_iff.1 hloop, not_refused_iff.1 hlike⟩
  · rintro ⟨front, hsplit, hpath, hloop, hlike⟩
    refine ⟨front, options, hsplit, path, hpath, ?_⟩
    rw [if_neg (not_refused_iff.2 hloop), if_neg (not_refused_iff.2 hlike)]
    rfl

theorem readPath_of_eq_ok {path : Path} {options : Options}
    (h : s.readPath inLoop p e = .ok (path, options)) (s' : Source) (p' : Place) :
    s'.readPath inLoop p' e = .ok (path, options) :=
  readPath_eq_ok_iff.2 (readPath_eq_ok_iff.1 h)

theorem readVariable_eq_ok_iff {v : Variable} :
    s.readVariable inLoop p e testValue = .ok v ↔
      s.readPath inLoop p e = .ok (v.path, v.options) ∧
        v.expression = String.ofList (Text.trim e) ∧ v.testValue = String.ofList testValue := by
  rw [readVariable, Except.bind_eq_ok_iff]
  constructor
  · rintro ⟨⟨path, options⟩, hpath, h⟩
    cases h
    exact ⟨hpath, rfl, rfl⟩
  · rintro ⟨hpath, hexpression, htest⟩
    refine ⟨_, hpath, ?_⟩
    rw [← hexpression, ← htest]
    rfl

theorem readVariable_of_eq_ok {v : Variable} (h : s.readVariable inLoop p e testValue = .ok v)
    (s' : Source) (p' : Place) : s'.readVariable inLoop p' e testValue = .ok v := by
  rw [readVariable_eq_ok_iff] at h ⊢
  exact ⟨readPath_of_eq_ok h.1 s' p', h.2⟩

theorem readCondition_eq_ok_iff {condition : Condition} :
    s.readCondition inLoop e = .ok condition ↔
      Condition.ofText e = .ok condition ∧ (condition.usesLoop = true → inLoop = true) := by
  rw [readCondition, Except.bind_eq_ok_iff]
  constructor
  · rintro ⟨c, hc, h⟩
    split at h
    next => cases h
    next hloop =>
      cases h
      exact ⟨Except.mapError_eq_ok_iff.1 hc, not_refused_iff.1 hloop⟩
  · rintro ⟨hc, hloop⟩
    refine ⟨condition, Except.mapError_eq_ok_iff.2 hc, ?_⟩
    rw [if_neg (not_refused_iff.2 hloop)]
    rfl

theorem readCondition_of_eq_ok {condition : Condition}
    (h : s.readCondition inLoop e = .ok condition) (s' : Source) :
    s'.readCondition inLoop e = .ok condition :=
  readCondition_eq_ok_iff.2 (readCondition_eq_ok_iff.1 h)

end Readings

theorem item_eq_ok_iff {inLoop : Bool} {p : Place} {testValue : List Char} {i : Item} :
    s.item inLoop p testValue = .ok i ↔ s.Says inLoop p testValue (.ofBody p.body) i := by
  rw [item]
  generalize Directive.ofBody p.body = d
  constructor
  · intro h
    cases d with
    | ifMark e =>
        obtain ⟨condition, hcondition, h⟩ := Except.bind_eq_ok_iff.1 h
        cases h
        exact .ifMark hcondition
    | bind e =>
        obtain ⟨v, hv, h⟩ := Except.bind_eq_ok_iff.1 h
        cases h
        exact .bind hv
    | embedded mode e =>
        obtain ⟨v, hv, h⟩ := Except.bind_eq_ok_iff.1 h
        cases h
        exact .embedded hv
    | forMark e =>
        obtain ⟨⟨path, options⟩, hpath, h⟩ := Except.bind_eq_ok_iff.1 h
        dsimp only at h
        split at h
        next => cases h
        next hlike =>
          cases h
          exact .forMark hpath (Bool.eq_false_iff.2 hlike)
    | nextMark t =>
        dsimp only at h
        split at h
        next hloop =>
          split at h
          next u hu =>
            cases h
            exact .nextMark hloop hu
          next => cases h
        next => cases h
    | firstMark =>
        dsimp only at h
        split at h
        next hloop =>
          cases h
          exact .firstMark hloop
        next => cases h
    | lastMark =>
        dsimp only at h
        split at h
        next hloop =>
          cases h
          exact .lastMark hloop
        next => cases h
    | plain => cases h; exact .plain
    | beginMark => cases h; exact .beginMark
    | endMark => cases h; exact .endMark
    | elseMark => cases h; exact .elseMark
  · intro h
    cases h with
    | ifMark hcondition => exact Except.bind_eq_ok_iff.2 ⟨_, hcondition, rfl⟩
    | bind hv | embedded hv => exact Except.bind_eq_ok_iff.2 ⟨_, hv, rfl⟩
    | forMark hpath hlike =>
        refine Except.bind_eq_ok_iff.2 ⟨_, hpath, ?_⟩
        dsimp only
        rw [hlike]
        rfl
    | nextMark hloop hquoted =>
        dsimp only
        rw [if_pos hloop, hquoted]
    | firstMark hloop | lastMark hloop => exact if_pos hloop
    | plain | beginMark | endMark | elseMark => rfl

theorem item_eq_error_iff {inLoop : Bool} {p : Place} {testValue : List Char}
    {e : TemplateError} :
    s.item inLoop p testValue = .error e ↔ s.Rejects inLoop p testValue (.ofBody p.body) e := by
  rw [item]
  generalize Directive.ofBody p.body = d
  constructor
  · intro h
    cases d with
    | ifMark operand =>
        rcases Except.bind_eq_error_iff.1 h with h | ⟨c, -, h⟩
        · exact .ifMark h
        · cases h
    | bind operand =>
        rcases Except.bind_eq_error_iff.1 h with h | ⟨v, -, h⟩
        · exact .bind h
        · cases h
    | embedded mode operand =>
        rcases Except.bind_eq_error_iff.1 h with h | ⟨v, -, h⟩
        · exact .embedded h
        · cases h
    | forMark operand =>
        rcases Except.bind_eq_error_iff.1 h with h | ⟨⟨path, options⟩, hpath, h⟩
        · exact .forMark h
        · dsimp only at h
          split at h
          next hlike =>
            cases h
            exact .notLike hpath hlike
          next => cases h
    | nextMark t =>
        dsimp only at h
        split at h
        next hloop =>
          split at h
          next => cases h
          next hquoted =>
            cases h
            exact .unquoted hloop hquoted
        next hloop =>
          cases h
          exact .nextMark (Bool.eq_false_iff.2 hloop)
    | firstMark =>
        dsimp only at h
        split at h
        next => cases h
        next hloop =>
          cases h
          exact .firstMark (Bool.eq_false_iff.2 hloop)
    | lastMark =>
        dsimp only at h
        split at h
        next => cases h
        next hloop =>
          cases h
          exact .lastMark (Bool.eq_false_iff.2 hloop)
    | plain | beginMark | endMark | elseMark => cases h
  · intro h
    cases h with
    | bind h | embedded h | ifMark h | forMark h => exact Except.bind_eq_error_iff.2 (.inl h)
    | notLike hpath hlike => exact Except.bind_eq_error_iff.2 (.inr ⟨_, hpath, if_pos hlike⟩)
    | unquoted hloop hquoted =>
        dsimp only
        rw [if_pos hloop, hquoted]
    | firstMark hloop | lastMark hloop | nextMark hloop => exact if_neg (Bool.eq_false_iff.1 hloop)

/-- The end of a text is no comment. -/
theorem item_ne_closing_stop (inLoop : Bool) (p : Place) (testValue : List Char) :
    s.item inLoop p testValue ≠ .ok (.closing .stop) := by
  rw [Ne, item_eq_ok_iff]
  generalize Directive.ofBody p.body = d
  intro h
  cases h

/-- A sequence that ends with the text leaves nothing. -/
theorem Reads.rest_eq_nil {inLoop : Bool} {ls : List Lexeme} {ns : List Node} {c : Closing}
    {rest : List Lexeme} (h : s.Reads inLoop ls ns c rest) (hc : c = .stop) : rest = [] := by
  induction h with
  | stop => rfl
  | text _ ih => exact ih hc
  | node _ _ ih => exact ih hc
  | closing hitem =>
      subst hc
      exact absurd hitem (item_ne_closing_stop _ _ _)
  | block _ _ _ _ ih => exact ih hc
  | parts _ _ _ _ _ _ _ ih => exact ih hc

theorem Reads.isSuffix {inLoop : Bool} {ls : List Lexeme} {ns : List Node} {c : Closing}
    {rest : List Lexeme} (h : s.Reads inLoop ls ns c rest) : rest <:+ ls := by
  induction h with
  | stop => exact List.suffix_rfl
  | text _ ih => exact ih.trans (List.suffix_cons _ _)
  | node _ _ ih => exact ih.trans (List.suffix_cons _ _)
  | closing => exact List.suffix_cons _ _
  | block _ _ _ ihpart ihrest => exact (ihrest.trans ihpart).trans (List.suffix_cons _ _)
  | parts _ _ _ _ _ ihpart ihsecond ihrest =>
      exact ((ihrest.trans ihsecond).trans ihpart).trans (List.suffix_cons _ _)

/-- Whatever the first lexeme says for the first source, the second one says for the second. -/
inductive SaysAs (s s' : Source) : Lexeme → Lexeme → Prop where
  | text (t : String) : SaysAs s s' (.text t) (.text t)
  | comment {body body' start start' testValue testValue'}
      (h : ∀ inLoop i, s.item inLoop ⟨body, start⟩ testValue = .ok i →
        s'.item inLoop ⟨body', start'⟩ testValue' = .ok i) :
      SaysAs s s' (.comment body start testValue) (.comment body' start' testValue')

section SaysAs

variable {s' : Source} {inLoop : Bool} {ls ls' : List Lexeme} {ns : List Node} {c : Closing}
  {rest : List Lexeme}

/-- A sequence with its mark is read from lexemes that say the same, whatever stands behind. -/
theorem Reads.exists_reads_append (h : s.Reads inLoop ls ns c rest) (hc : c ≠ .stop)
    (hls : List.Forall₂ (SaysAs s s') ls ls') (ks : List Lexeme) :
    ∃ rest', List.Forall₂ (SaysAs s s') rest rest' ∧
      s'.Reads inLoop (ls' ++ ks) ns c (rest' ++ ks) := by
  induction h generalizing ls' with
  | stop => exact absurd rfl hc
  | text _ ih =>
      cases hls with
      | cons hl hls =>
          cases hl
          obtain ⟨rest', hrest, hreads⟩ := ih hc hls
          exact ⟨rest', hrest, .text hreads⟩
  | node hitem _ ih =>
      cases hls with
      | cons hl hls =>
          cases hl with
          | comment hsame =>
              obtain ⟨rest', hrest, hreads⟩ := ih hc hls
              exact ⟨rest', hrest, .node (hsame _ _ hitem) hreads⟩
  | closing hitem =>
      cases hls with
      | cons hl hls =>
          cases hl with
          | comment hsame => exact ⟨_, hls, .closing (hsame _ _ hitem)⟩
  | block hitem _ _ ihpart ihrest =>
      cases hls with
      | cons hl hls =>
          cases hl with
          | comment hsame =>
              obtain ⟨mid', hmid, hpart⟩ := ihpart (by decide) hls
              obtain ⟨rest', hrest, hreads⟩ := ihrest hc hmid
              exact ⟨rest', hrest, .block (hsame _ _ hitem) hpart hreads⟩
  | parts hitem hallows _ _ _ ihpart ihsecond ihrest =>
      cases hls with
      | cons hl hls =>
          cases hl with
          | comment hsame =>
              obtain ⟨mid, hmid, hpart⟩ := ihpart (by decide) hls
              obtain ⟨mid', hmid', hsecond⟩ := ihsecond (by decide) hmid
              obtain ⟨rest', hrest, hreads⟩ := ihrest hc hmid'
              exact ⟨rest', hrest, .parts (hsame _ _ hitem) hallows hpart hsecond hreads⟩

/-- In front of other lexemes, those of a whole text are read as its nodes, and then the others are
read. -/
theorem Reads.append (h : s.Reads inLoop ls ns c rest) (hc : c = .stop)
    (hls : List.Forall₂ (SaysAs s s') ls ls') {ks : List Lexeme} {ms : List Node} {c' : Closing}
    {rest' : List Lexeme} (hks : s'.Reads inLoop ks ms c' rest') :
    s'.Reads inLoop (ls' ++ ks) (ns ++ ms) c' rest' := by
  induction h generalizing ls' with
  | stop =>
      cases hls
      exact hks
  | text _ ih =>
      cases hls with
      | cons hl hls =>
          cases hl
          exact .text (ih hc hls hks)
  | node hitem _ ih =>
      cases hls with
      | cons hl hls =>
          cases hl with
          | comment hsame => exact .node (hsame _ _ hitem) (ih hc hls hks)
  | closing hitem =>
      subst hc
      exact absurd hitem (item_ne_closing_stop _ _ _)
  | block hitem hpart _ _ ihrest =>
      cases hls with
      | cons hl hls =>
          cases hl with
          | comment hsame =>
              obtain ⟨mid', hmid, hpart⟩ := hpart.exists_reads_append (by decide) hls ks
              exact .block (hsame _ _ hitem) hpart (ihrest hc hmid hks)
  | parts hitem hallows hpart hsecond _ _ _ ihrest =>
      cases hls with
      | cons hl hls =>
          cases hl with
          | comment hsame =>
              obtain ⟨mid, hmid, hpart⟩ := hpart.exists_reads_append (by decide) hls ks
              obtain ⟨mid', hmid', hsecond⟩ := hsecond.exists_reads_append (by decide) hmid ks
              exact .parts (hsame _ _ hitem) hallows hpart hsecond (ihrest hc hmid' hks)

end SaysAs

/-- What the descent finds is allowed by the rules, and its mark closes the block. -/
theorem reads_of_sequence_eq_ok {inLoop : Bool} {block : Option OpenBlock} {ls : List Lexeme}
    {r : Sequence ls} (h : s.sequence inLoop block ls = .ok r) :
    s.Reads inLoop ls r.nodes r.closing r.rest ∧ r.closing.closes block = true := by
  induction inLoop, block, ls using Source.sequence.induct s with
  | case1 inLoop block kind hfault =>
      unfold sequence at h
      rw [hfault] at h
      cases h
  | case2 inLoop hfault =>
      unfold sequence at h
      rw [hfault] at h
      cases h
      exact ⟨.stop hfault, rfl⟩
  | case3 inLoop b hfault =>
      unfold sequence at h
      rw [hfault] at h
      cases h
  | case4 inLoop block t ls ih =>
      rw [sequence] at h
      obtain ⟨rest, hrest, h⟩ := Except.bind_eq_ok_iff.1 h
      cases h
      obtain ⟨hreads, hcloses⟩ := ih hrest
      exact ⟨.text hreads, hcloses⟩
  | case5 inLoop block body start testValue ls ih ihpart ihsecond ihrest ihrest' =>
      rw [sequence] at h
      obtain ⟨i, hitem, h⟩ := Except.bind_eq_ok_iff.1 h
      cases i with
      | node n =>
          obtain ⟨rest, hrest, h⟩ := Except.bind_eq_ok_iff.1 h
          cases h
          obtain ⟨hreads, hcloses⟩ := ih hrest
          exact ⟨.node hitem hreads, hcloses⟩
      | closing c =>
          dsimp only at h
          split at h
          next hcloses =>
            cases h
            exact ⟨.closing hitem, hcloses⟩
          next => cases h
      | opening o =>
          obtain ⟨part, hpart, h⟩ := Except.bind_eq_ok_iff.1 h
          obtain ⟨hreads, hcloses⟩ := ihpart o hpart
          dsimp only at h
          split at h
          next helse =>
            obtain ⟨second, hsecond, h⟩ := Except.bind_eq_ok_iff.1 h
            obtain ⟨rest, hrest, h⟩ := Except.bind_eq_ok_iff.1 h
            cases h
            obtain ⟨hreads₂, hcloses₂⟩ := ihsecond o part hsecond
            obtain ⟨hreads₃, hcloses₃⟩ := ihrest part second hrest
            have hend := Closing.eq_endMark_of_closes hcloses₂ fun h => nomatch h
            rw [helse] at hreads hcloses
            rw [hend] at hreads₂
            exact ⟨.parts hitem hcloses hreads hreads₂ hreads₃, hcloses₃⟩
          next helse =>
            obtain ⟨rest, hrest, h⟩ := Except.bind_eq_ok_iff.1 h
            cases h
            obtain ⟨hreads₃, hcloses₃⟩ := ihrest' part hrest
            have hend := Closing.eq_endMark_of_closes hcloses fun _ => helse
            rw [hend] at hreads
            exact ⟨.block hitem hreads hreads₃, hcloses₃⟩

/-- What the rules allow is found by the descent, in a block that the mark closes. -/
theorem Reads.exists_sequence {inLoop : Bool} {ls : List Lexeme} {ns : List Node} {c : Closing}
    {rest : List Lexeme} (h : s.Reads inLoop ls ns c rest) (block : Option OpenBlock)
    (hcloses : c.closes block = true) :
    ∃ r, s.sequence inLoop block ls = .ok r ∧ r.nodes = ns ∧ r.closing = c ∧ r.rest = rest := by
  induction h generalizing block with
  | stop hfault =>
      cases block with
      | none =>
          unfold sequence
          rw [hfault]
          exact ⟨_, rfl, rfl, rfl, rfl⟩
      | some b => cases hcloses
  | text _ ih =>
      obtain ⟨r, hr, rfl, rfl, rfl⟩ := ih block hcloses
      rw [sequence, hr]
      exact ⟨_, rfl, rfl, rfl, rfl⟩
  | node hitem _ ih =>
      obtain ⟨r, hr, rfl, rfl, rfl⟩ := ih block hcloses
      rw [sequence, hitem]
      dsimp only [bind, Except.bind]
      rw [hr]
      exact ⟨_, rfl, rfl, rfl, rfl⟩
  | closing hitem =>
      rw [sequence, hitem]
      dsimp only [bind, Except.bind]
      rw [if_pos hcloses]
      exact ⟨_, rfl, rfl, rfl, rfl⟩
  | @block inLoop body start _ o _ _ _ _ _ _ hitem _ _ ihpart ihrest =>
      obtain ⟨part, hpart, rfl, hend, rfl⟩ :=
        ihpart (some ⟨⟨body, start⟩, o.allowsElse⟩) rfl
      obtain ⟨r, hr, rfl, rfl, rfl⟩ := ihrest block hcloses
      have helse : part.closing ≠ .elseMark := by
        rw [hend]
        decide
      rw [sequence, hitem]
      dsimp only [bind, Except.bind]
      rw [hpart]
      dsimp only
      rw [if_neg helse, hr]
      exact ⟨_, rfl, rfl, rfl, rfl⟩
  | @parts inLoop body start _ o _ _ _ _ _ _ _ _ hitem hallows _ _ _ ihpart ihsecond ihrest =>
      obtain ⟨part, hpart, rfl, helse, rfl⟩ :=
        ihpart (some ⟨⟨body, start⟩, o.allowsElse⟩) hallows
      obtain ⟨second, hsecond, rfl, -, rfl⟩ :=
        ihsecond (some ⟨⟨body, start⟩, false⟩) rfl
      obtain ⟨r, hr, rfl, rfl, rfl⟩ := ihrest block hcloses
      rw [sequence, hitem]
      dsimp only [bind, Except.bind]
      rw [hpart]
      dsimp only
      rw [if_pos helse, hsecond]
      dsimp only
      rw [hr]
      exact ⟨_, rfl, rfl, rfl, rfl⟩

/-- The descent has no error but those of the rules. -/
theorem fails_of_sequence_eq_error {inLoop : Bool} {block : Option OpenBlock}
    {ls : List Lexeme} {e : TemplateError} (h : s.sequence inLoop block ls = .error e) :
    s.Fails inLoop block ls e := by
  induction inLoop, block, ls using Source.sequence.induct s with
  | case1 inLoop block kind hfault =>
      unfold sequence at h
      rw [hfault] at h
      cases h
      exact .fault hfault
  | case2 inLoop hfault =>
      unfold sequence at h
      rw [hfault] at h
      cases h
  | case3 inLoop b hfault =>
      unfold sequence at h
      rw [hfault] at h
      cases h
      exact .unclosed hfault
  | case4 inLoop block t ls ih =>
      rw [sequence] at h
      rcases Except.bind_eq_error_iff.1 h with h | ⟨r, -, h⟩
      · exact .text (ih h)
      · cases h
  | case5 inLoop block body start testValue ls ih ihpart ihsecond ihrest ihrest' =>
      rw [sequence] at h
      rcases Except.bind_eq_error_iff.1 h with hitem | ⟨i, hitem, h⟩
      · exact .item hitem
      · cases i with
        | node n =>
            rcases Except.bind_eq_error_iff.1 h with h | ⟨r, -, h⟩
            · exact .node hitem (ih h)
            · cases h
        | closing c =>
            dsimp only at h
            split at h
            next => cases h
            next hcloses =>
              cases h
              exact .unexpected hitem (Bool.eq_false_iff.2 hcloses)
        | opening o =>
            rcases Except.bind_eq_error_iff.1 h with hpart | ⟨part, hpart, h⟩
            · exact .part hitem (ihpart o hpart)
            · obtain ⟨hreads, hcloses⟩ := reads_of_sequence_eq_ok hpart
              dsimp only at h
              split at h
              next helse =>
                rw [helse] at hreads hcloses
                rcases Except.bind_eq_error_iff.1 h with hsecond | ⟨second, hsecond, h⟩
                · exact .second hitem hcloses hreads (ihsecond o part hsecond)
                · obtain ⟨hreads₂, hcloses₂⟩ := reads_of_sequence_eq_ok hsecond
                  rw [Closing.eq_endMark_of_closes hcloses₂ fun h => nomatch h] at hreads₂
                  rcases Except.bind_eq_error_iff.1 h with hrest | ⟨r, -, h⟩
                  · exact .behindParts hitem hcloses hreads hreads₂ (ihrest part second hrest)
                  · cases h
              next helse =>
                rw [Closing.eq_endMark_of_closes hcloses fun _ => helse] at hreads
                rcases Except.bind_eq_error_iff.1 h with hrest | ⟨r, -, h⟩
                · exact .behindBlock hitem hreads (ihrest' part hrest)
                · cases h

end Source

/-- A text is read as the nodes that the rules allow for its lexemes. -/
theorem readNodes_eq_ok_iff {text : String} {inLoop : Bool} {ns : List Node} :
    readNodes text inLoop = .ok ns ↔
      Source.Reads ⟨text, (Lexeme.readAll (.ofText text)).2⟩ inLoop
        (Lexeme.readAll (.ofText text)).1 ns .stop [] := by
  constructor
  · intro h
    obtain ⟨r, hr, h⟩ := Except.bind_eq_ok_iff.1 h
    cases h
    obtain ⟨hreads, hcloses⟩ := Source.reads_of_sequence_eq_ok hr
    have hstop : r.closing = .stop := by simpa [Closing.closes] using hcloses
    have hrest := hreads.rest_eq_nil hstop
    rwa [hstop, hrest] at hreads
  · intro h
    obtain ⟨r, hr, hns, -⟩ := h.exists_sequence none rfl
    exact Except.bind_eq_ok_iff.2 ⟨r, hr, congrArg Except.ok hns⟩

/-- A text that is read as nodes has no fault. -/
theorem fault_eq_none_of_reads {s : Source} {inLoop : Bool} {ls : List Lexeme} {ns : List Node}
    {c : Closing} {rest : List Lexeme} (h : s.Reads inLoop ls ns c rest) (hc : c = .stop) :
    s.fault = none := by
  induction h with
  | stop hfault => exact hfault
  | text _ ih => exact ih hc
  | node _ _ ih => exact ih hc
  | closing hitem =>
      subst hc
      exact absurd hitem (Source.item_ne_closing_stop _ _ _)
  | block _ _ _ _ ih => exact ih hc
  | parts _ _ _ _ _ _ _ ih => exact ih hc

end SqlTemplate.Template
