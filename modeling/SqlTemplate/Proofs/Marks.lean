import Mathlib
import SqlTemplate.Condition.Reading
import SqlTemplate.Proofs.Result
import SqlTemplate.Proofs.Trimming

/-!
# Marked texts

Marking a text takes it apart into quoted literals and characters outside of them
(`Condition.Marked`, `Condition.markLiterals_eq_ok_iff`). So a text may be put together from marked
parts, and where it is cut outside of literals both parts are marked as they would be on their own
(`Condition.Marked.of_append_cons`); a text without the blanks around it is one such part
(`Condition.Marked.exists_trim`).
-/

namespace SqlTemplate

namespace Text

theorem trimStart_append_of_blanks {s : List Char} (h : ∀ c ∈ s, isBlank c = true)
    (t : List Char) : trimStart (s ++ t) = trimStart t := by
  induction s with
  | nil => rfl
  | cons c s ih =>
      rw [List.forall_mem_cons] at h
      rw [List.cons_append, trimStart_cons, if_pos h.1, ih h.2]

theorem trimEnd_append_of_blanks {t : List Char} (h : ∀ c ∈ t, isBlank c = true)
    (s : List Char) : trimEnd (s ++ t) = trimEnd s := by
  induction s with
  | nil =>
      induction t with
      | nil => rfl
      | cons c t ih =>
          rw [List.forall_mem_cons] at h
          rw [List.nil_append, trimEnd_cons, if_pos ⟨ih h.2, h.1⟩]
          rfl
  | cons c s ih => rw [List.cons_append, trimEnd_cons, trimEnd_cons, ih]

/-- Blanks around a text mean nothing. -/
theorem trim_append_of_blanks {a b : List Char} (ha : ∀ c ∈ a, isBlank c = true)
    (hb : ∀ c ∈ b, isBlank c = true) (s : List Char) : trim (a ++ s ++ b) = trim s := by
  rw [List.append_assoc, trim, trimStart_append_of_blanks ha, ← trim, ← trim_trimEnd,
    trimEnd_append_of_blanks hb, trim_trimEnd]

end Text

namespace Condition

open Text (quoteMark trim trimStart trimEnd isBlank double quote)

@[simp] theorem chars_nil : chars [] = [] := rfl

@[simp] theorem chars_cons (m : Mark) (ms : List Mark) : chars (m :: ms) = m.char :: chars ms :=
  rfl

@[simp] theorem chars_append (ms ns : List Mark) : chars (ms ++ ns) = chars ms ++ chars ns :=
  List.map_append

@[simp] theorem visibleChars_nil : visibleChars [] = [] := rfl

@[simp] theorem visibleChars_cons (m : Mark) (ms : List Mark) :
    visibleChars (m :: ms) = m.visible :: visibleChars ms :=
  rfl

@[simp] theorem visibleChars_append (ms ns : List Mark) :
    visibleChars (ms ++ ns) = visibleChars ms ++ visibleChars ns :=
  List.map_append

/-- The marks of a text outside of literals. -/
def plainMarks (s : List Char) : List Mark :=
  s.map (⟨·, false⟩)

@[simp] theorem chars_plainMarks (s : List Char) : chars (plainMarks s) = s := by
  rw [chars, plainMarks, List.map_map]
  exact List.map_id _

@[simp] theorem visibleChars_plainMarks (s : List Char) : visibleChars (plainMarks s) = s := by
  rw [visibleChars, plainMarks, List.map_map]
  exact List.map_id _

/-- The marks of what stands in a literal. -/
def contentMarks (s : List Char) : List Mark :=
  (double s).map (⟨·, true⟩)

/-- The marks of the literal that denotes the text. -/
def literalMarks (s : List Char) : List Mark :=
  ⟨quoteMark, false⟩ :: (contentMarks s ++ [⟨quoteMark, false⟩])

@[simp] theorem chars_contentMarks (s : List Char) : chars (contentMarks s) = double s := by
  rw [chars, contentMarks, List.map_map]
  exact List.map_id _

@[simp] theorem chars_literalMarks (s : List Char) : chars (literalMarks s) = quote s := by
  simp [literalMarks, quote]

theorem contentMarks_cons_of_ne {c : Char} (h : c ≠ quoteMark) (s : List Char) :
    contentMarks (c :: s) = ⟨c, true⟩ :: contentMarks s := by
  rw [contentMarks, double, if_neg h]
  rfl

theorem contentMarks_cons_quoteMark (s : List Char) :
    contentMarks (quoteMark :: s) = ⟨quoteMark, true⟩ :: ⟨quoteMark, true⟩ :: contentMarks s := by
  rw [contentMarks, double, if_pos rfl]
  rfl

/-- A mark of a literal is content or a quote mark. -/
theorem content_or_quoteMark_of_mem_literalMarks {s : List Char} {m : Mark}
    (h : m ∈ literalMarks s) : m.content = true ∨ m = ⟨quoteMark, false⟩ := by
  rw [literalMarks, List.mem_cons, List.mem_append, List.mem_singleton] at h
  rcases h with rfl | h | rfl
  · exact .inr rfl
  · obtain ⟨c, -, rfl⟩ := List.mem_map.1 h
    exact .inl rfl
  · exact .inr rfl

/-- Of a literal only its quote marks are visible. -/
theorem visible_of_mem_literalMarks {s : List Char} {m : Mark} (h : m ∈ literalMarks s) :
    m.visible = quoteMark ∨ m.visible = '_' := by
  rcases content_or_quoteMark_of_mem_literalMarks h with hcontent | rfl
  · exact .inr (by rw [Mark.visible, if_pos hcontent])
  · exact .inl rfl

/-- The marks of a text: characters outside of literals, and literals, which do not stand directly
behind one another. -/
inductive Marked : List Mark → Prop where
  | nil : Marked []
  | plain {c : Char} {ms : List Mark} (hc : c ≠ quoteMark) (hrest : Marked ms) :
      Marked (⟨c, false⟩ :: ms)
  | literal {s : List Char} {ms : List Mark} (hrest : Marked ms)
      (hbehind : (chars ms).head? ≠ some quoteMark) : Marked (literalMarks s ++ ms)

section Marking

variable {ms : List Mark} {l s : List Char} {c : Char}

/-- Any other character is content if a literal is open. -/
theorem markFrom_cons_of_ne (h : c ≠ quoteMark) (opened : Option (List Char)) (s : List Char) :
    markFrom opened (c :: s) = (markFrom opened s).map (⟨c, opened.isSome⟩ :: ·) := by
  cases opened with
  | none | some l =>
      cases s with
      | nil => simp [markFrom, h, Except.map]
      | cons d s => simp [markFrom, h]

theorem markFrom_none_cons_quoteMark (s : List Char) :
    markFrom none (quoteMark :: s) =
      (markFrom (some (quoteMark :: s)) s).map (⟨quoteMark, false⟩ :: ·) := by
  cases s with
  | nil => rfl
  | cons d s =>
      rw [markFrom]
      simp only [if_true]

theorem markFrom_some_cons_cons_quoteMark (l s : List Char) :
    markFrom (some l) (quoteMark :: quoteMark :: s) =
      (markFrom (some l) s).map (⟨quoteMark, true⟩ :: ⟨quoteMark, true⟩ :: ·) := by
  rw [markFrom]
  simp only [if_true]

theorem markFrom_some_cons_quoteMark (h : s.head? ≠ some quoteMark) (l : List Char) :
    markFrom (some l) (quoteMark :: s) = (markFrom none s).map (⟨quoteMark, false⟩ :: ·) := by
  cases s with
  | nil => rfl
  | cons d s =>
      have hd : d ≠ quoteMark := fun hd => h (congrArg some hd)
      rw [markFrom]
      simp only [if_true, if_neg hd]

/-- What stands in an open literal is marked up to the closing mark. -/
theorem markFrom_some_double (h : s.head? ≠ some quoteMark) (l a : List Char) :
    markFrom (some l) (double a ++ quoteMark :: s) =
      (markFrom none s).map (contentMarks a ++ ⟨quoteMark, false⟩ :: ·) := by
  induction a with
  | nil => exact markFrom_some_cons_quoteMark h l
  | cons c a ih =>
      by_cases hc : c = quoteMark
      · rw [hc, contentMarks_cons_quoteMark, double, if_pos rfl, List.cons_append,
          List.cons_append, markFrom_some_cons_cons_quoteMark, ih, Except.map_map]
        rfl
      · rw [contentMarks_cons_of_ne hc, double, if_neg hc, List.cons_append,
          markFrom_cons_of_ne hc, ih, Except.map_map]
        rfl

theorem Marked.markLiterals_chars (h : Marked ms) : markLiterals (chars ms) = .ok ms := by
  rw [markLiterals]
  induction h with
  | nil => rfl
  | plain hc _ ih => rw [chars_cons, markFrom_cons_of_ne hc, ih]; rfl
  | @literal s ms _ hbehind ih =>
      rw [chars_append, chars_literalMarks, quote, List.cons_append, List.append_assoc,
        List.singleton_append, markFrom_none_cons_quoteMark, markFrom_some_double hbehind, ih]
      simp [Except.map, literalMarks]

/-- The marks of a text that starts in a literal. -/
def Closes (ms : List Mark) : Prop :=
  ∃ s rest, ms = contentMarks s ++ ⟨quoteMark, false⟩ :: rest ∧ Marked rest ∧
    (chars rest).head? ≠ some quoteMark

theorem Closes.cons (hc : c ≠ quoteMark) (h : Closes ms) : Closes (⟨c, true⟩ :: ms) := by
  obtain ⟨s, rest, rfl, hrest, hbehind⟩ := h
  exact ⟨c :: s, rest, by rw [contentMarks_cons_of_ne hc]; rfl, hrest, hbehind⟩

theorem Closes.cons_cons (h : Closes ms) :
    Closes (⟨quoteMark, true⟩ :: ⟨quoteMark, true⟩ :: ms) := by
  obtain ⟨s, rest, rfl, hrest, hbehind⟩ := h
  exact ⟨quoteMark :: s, rest, by rw [contentMarks_cons_quoteMark]; rfl, hrest, hbehind⟩

theorem Closes.marked (h : Closes ms) : Marked (⟨quoteMark, false⟩ :: ms) := by
  obtain ⟨s, rest, rfl, hrest, hbehind⟩ := h
  have heq : ⟨quoteMark, false⟩ :: (contentMarks s ++ ⟨quoteMark, false⟩ :: rest) =
      literalMarks s ++ rest := by simp [literalMarks]
  rw [heq]
  exact .literal hrest hbehind

/-- Whatever is marked is taken apart into literals and characters outside of them. -/
theorem marked_of_markFrom_eq_ok {opened : Option (List Char)}
    (h : markFrom opened s = .ok ms) : if opened.isSome then Closes ms else Marked ms := by
  fun_induction markFrom opened s generalizing ms with
  | case1 => cases h; exact .nil
  | case2 => cases h
  | case3 => cases h
  | case4 c hc => cases h; exact .plain hc .nil
  | case5 => cases h; exact ⟨[], [], rfl, .nil, by simp⟩
  | case6 => cases h
  | case7 d s ih =>
      obtain ⟨ns, hns, rfl⟩ := Except.map_eq_ok_iff.1 h
      exact (ih hns).marked
  | case8 c d s hc ih =>
      obtain ⟨ns, hns, rfl⟩ := Except.map_eq_ok_iff.1 h
      exact .plain hc (ih hns)
  | case9 s l ih =>
      obtain ⟨ns, hns, rfl⟩ := Except.map_eq_ok_iff.1 h
      exact (ih hns).cons_cons
  | case10 d s l hd ih =>
      obtain ⟨ns, hns, rfl⟩ := Except.map_eq_ok_iff.1 h
      refine ⟨[], ns, rfl, ih hns, ?_⟩
      rw [chars_of_markFrom_eq_ok hns]
      exact fun h => hd (Option.some.inj h)
  | case11 c d s l hc ih =>
      obtain ⟨ns, hns, rfl⟩ := Except.map_eq_ok_iff.1 h
      exact (ih hns).cons hc

/-- Marking a text takes it apart into literals and characters outside of them. -/
theorem markLiterals_eq_ok_iff : markLiterals s = .ok ms ↔ Marked ms ∧ chars ms = s := by
  constructor
  · intro h
    exact ⟨marked_of_markFrom_eq_ok h, chars_of_markLiterals_eq_ok h⟩
  · rintro ⟨h, rfl⟩
    exact h.markLiterals_chars

end Marking

section Parts

variable {ms ns : List Mark} {m : Mark}

theorem marked_plainMarks {s : List Char} (h : quoteMark ∉ s) : Marked (plainMarks s) := by
  induction s with
  | nil => exact .nil
  | cons c s ih =>
      rw [List.mem_cons, not_or] at h
      exact .plain (Ne.symm h.1) (ih h.2)

theorem marked_literalMarks (s : List Char) : Marked (literalMarks s) := by
  rw [← List.append_nil (literalMarks s)]
  exact .literal .nil fun h => nomatch h

/-- Marked parts make a marked text, if no two literals come together. -/
theorem Marked.append (hms : Marked ms) (hns : Marked ns)
    (h : (chars ns).head? ≠ some quoteMark) : Marked (ms ++ ns) := by
  induction hms with
  | nil => exact hns
  | plain hc _ ih => exact .plain hc ih
  | @literal s ms _ hbehind ih =>
      rw [List.append_assoc]
      refine .literal ih ?_
      cases ms with
      | nil => exact h
      | cons m ms => exact hbehind

/-- Where a marked text is cut outside of literals, both parts are marked. -/
theorem Marked.of_append_cons (h : Marked (ms ++ m :: ns)) (hm : m.content = false)
    (hchar : m.char ≠ quoteMark) : Marked ms ∧ Marked ns := by
  generalize hall : ms ++ m :: ns = all at h
  induction h generalizing ms with
  | nil => simp at hall
  | plain hc hrest ih =>
      cases ms with
      | nil =>
          cases hall
          exact ⟨.nil, hrest⟩
      | cons k ms =>
          cases hall
          obtain ⟨hms, hns⟩ := ih rfl
          exact ⟨.plain hc hms, hns⟩
  | @literal s rest hrest hbehind ih =>
      -- The place of the cut is no mark of the literal.
      have hliteral : ∀ before after, literalMarks s ≠ before ++ m :: after := by
        intro before after heq
        have hmem : m ∈ literalMarks s := by rw [heq]; simp
        rcases content_or_quoteMark_of_mem_literalMarks hmem with hcontent | rfl
        · cases hm.symm.trans hcontent
        · exact hchar rfl
      rcases List.append_eq_append_iff.1 hall with ⟨before, hl, hcut⟩ | ⟨before, rfl, hcut⟩
      · cases before with
        | nil =>
            have hcut : [] ++ m :: ns = rest := hcut
            obtain ⟨-, hns⟩ := ih hcut
            rw [List.append_nil] at hl
            exact ⟨hl ▸ marked_literalMarks s, hns⟩
        | cons k before =>
            obtain ⟨rfl, -⟩ := List.cons.inj hcut
            exact absurd hl (hliteral ms before)
      · obtain ⟨hbefore, hns⟩ := ih hcut.symm
        refine ⟨.literal hbefore ?_, hns⟩
        cases before with
        | nil => exact fun h => nomatch h
        | cons k before =>
            rw [hcut] at hbehind
            exact hbehind

theorem getLast?_literalMarks_append (s : List Char) (ms : List Mark) :
    (literalMarks s ++ ms).getLast? = some (ms.getLast?.getD ⟨quoteMark, false⟩) := by
  cases hms : ms.getLast? with
  | none =>
      rw [List.getLast?_eq_none_iff] at hms
      simp [hms, literalMarks, List.getLast?_cons]
  | some m => simp [List.getLast?_append, hms]

/-- No literal is open where a marked text ends. -/
theorem Marked.content_of_getLast? (h : Marked ms) (hm : ms.getLast? = some m) :
    m.content = false := by
  induction h with
  | nil => cases hm
  | @plain c ms _ _ ih =>
      cases ms with
      | nil => cases hm; rfl
      | cons k ms => exact ih (by simpa [List.getLast?_cons_cons] using hm)
  | @literal s ms _ _ ih =>
      rw [getLast?_literalMarks_append] at hm
      cases hlast : ms.getLast? with
      | none =>
          rw [hlast] at hm
          cases hm
          rfl
      | some k =>
          rw [hlast] at hm
          cases hm
          exact ih hlast

/-- Nothing but blanks outside of literals. -/
def Blank (ms : List Mark) : Prop :=
  ∀ m ∈ ms, m.content = false ∧ isBlank m.char = true

theorem blank_nil : Blank [] :=
  List.forall_mem_nil _

theorem Blank.append (hms : Blank ms) (hns : Blank ns) : Blank (ms ++ ns) :=
  fun m hm => (List.mem_append.1 hm).elim (hms m) (hns m)

theorem Blank.isBlank (h : Blank ms) : ∀ c ∈ chars ms, isBlank c = true :=
  List.forall_mem_map.2 fun m hm => (h m hm).2

theorem Blank.visible_ne (h : Blank ms) {c : Char} (hc : Text.isBlank c = false) :
    ∀ m ∈ ms, m.visible ≠ c := by
  rintro m hm rfl
  obtain ⟨hcontent, hblank⟩ := h m hm
  rw [Mark.visible, if_neg (Bool.eq_false_iff.1 hcontent), hblank] at hc
  cases hc

/-- Blanks around a text mean nothing. -/
theorem trim_chars_append {before after : List Mark} (hbefore : Blank before)
    (hafter : Blank after) (ms : List Mark) :
    trim (chars (before ++ ms ++ after)) = trim (chars ms) := by
  rw [chars_append, chars_append, Text.trim_append_of_blanks hbefore.isBlank hafter.isBlank]

/-- The blanks before a text are outside of its literals. -/
theorem Marked.exists_trimStart (h : Marked ms) :
    ∃ before inner, ms = before ++ inner ∧ Marked inner ∧ chars inner = trimStart (chars ms) ∧
      Blank before := by
  induction h with
  | nil => exact ⟨[], [], rfl, .nil, rfl, blank_nil⟩
  | @plain c ms hc hrest ih =>
      by_cases hblank : isBlank c = true
      · obtain ⟨before, inner, rfl, hinner, hchars, hbefore⟩ := ih
        refine ⟨⟨c, false⟩ :: before, inner, rfl, hinner, ?_, ?_⟩
        · rw [chars_cons, Text.trimStart_cons, if_pos hblank, hchars]
        · exact List.forall_mem_cons.2 ⟨⟨rfl, hblank⟩, hbefore⟩
      · refine ⟨[], _, rfl, .plain hc hrest, ?_, blank_nil⟩
        rw [chars_cons, Text.trimStart_cons, if_neg hblank]
  | @literal s ms hrest hbehind _ =>
      have hchars : chars (literalMarks s ++ ms) =
          quoteMark :: (double s ++ [quoteMark] ++ chars ms) := by
        rw [chars_append, chars_literalMarks]
        rfl
      refine ⟨[], literalMarks s ++ ms, rfl, .literal hrest hbehind, ?_, blank_nil⟩
      rw [hchars, Text.trimStart_cons, if_neg (by decide)]

/-- The blanks behind a text are outside of its literals. -/
theorem Marked.exists_trimEnd (h : Marked ms) :
    ∃ inner after, ms = inner ++ after ∧ Marked inner ∧ chars inner = trimEnd (chars ms) ∧
      Blank after := by
  induction ms using List.reverseRecOn with
  | nil => exact ⟨[], [], rfl, .nil, rfl, blank_nil⟩
  | append_singleton ms m ih =>
      have hm := h.content_of_getLast? List.getLast?_concat
      by_cases hblank : isBlank m.char = true
      · have hquote : m.char ≠ quoteMark := by
          intro heq
          rw [heq] at hblank
          exact absurd hblank (by decide)
        obtain ⟨inner, after, hms, hinner, hchars, hafter⟩ := ih (h.of_append_cons hm hquote).1
        have hlast : Blank [m] := List.forall_mem_singleton.2 ⟨hm, hblank⟩
        refine ⟨inner, after ++ [m], by rw [hms, List.append_assoc], hinner, ?_,
          hafter.append hlast⟩
        rw [hchars, chars_append, Text.trimEnd_append_of_blanks hlast.isBlank]
      · refine ⟨ms ++ [m], [], by simp, h, ?_, blank_nil⟩
        rw [chars_append, chars_cons, chars_nil,
          Text.trimEnd_append_cons (Bool.eq_false_iff.2 hblank), Text.trimEnd_nil]

/-- A marked text without the blanks around it is marked as well. -/
theorem Marked.exists_trim (h : Marked ms) :
    ∃ before inner after, ms = before ++ inner ++ after ∧ Marked inner ∧
      chars inner = trim (chars ms) ∧ Blank before ∧ Blank after := by
  obtain ⟨before, rest, rfl, hrest, hstart, hbefore⟩ := h.exists_trimStart
  obtain ⟨inner, after, rfl, hinner, hend, hafter⟩ := hrest.exists_trimEnd
  refine ⟨before, inner, after, by rw [List.append_assoc], hinner, ?_, hbefore, hafter⟩
  rw [hend, hstart, trim]

/-- Without characters outside of literals at its start a text is still marked. -/
theorem Marked.of_append (h : Marked (ms ++ ns))
    (hms : ∀ m ∈ ms, m.content = false ∧ m.char ≠ quoteMark) : Marked ns := by
  induction ms with
  | nil => exact h
  | cons m ms ih =>
      rw [List.forall_mem_cons] at hms
      rw [← List.nil_append (m :: ms ++ ns)] at h
      exact ih (h.of_append_cons hms.1.1 hms.1.2).2 hms.2

/-- What ends with a quote mark ends with a literal. -/
theorem Marked.exists_eq_append_literalMarks (h : Marked ms)
    (hlast : (chars ms).getLast? = some quoteMark) : ∃ mid b, ms = mid ++ literalMarks b := by
  induction h with
  | nil => cases hlast
  | @plain c ms hc _ ih =>
      cases ms with
      | nil => exact absurd (Option.some.inj hlast) hc
      | cons m ms =>
          rw [chars_cons, chars_cons, List.getLast?_cons_cons] at hlast
          obtain ⟨mid, b, heq⟩ := ih hlast
          exact ⟨⟨c, false⟩ :: mid, b, by rw [heq, List.cons_append]⟩
  | @literal s ms _ _ ih =>
      cases ms with
      | nil => exact ⟨[], s, List.append_nil _⟩
      | cons m ms =>
          have hne : chars (m :: ms) ≠ [] := List.cons_ne_nil _ _
          rw [chars_append, List.getLast?_append_of_ne_nil _ hne] at hlast
          obtain ⟨mid, b, heq⟩ := ih hlast
          exact ⟨literalMarks s ++ mid, b, by rw [heq, List.append_assoc]⟩

/-- What starts and ends with a quote mark is a literal or has one at both ends. -/
theorem Marked.exists_literal {s : List Char} (h : Marked ms)
    (htext : chars ms = quoteMark :: (s ++ [quoteMark])) :
    (∃ a, ms = literalMarks a) ∨
      ∃ a m mid b, m.char ≠ quoteMark ∧ ms = literalMarks a ++ m :: mid ++ literalMarks b := by
  cases h with
  | nil => cases htext
  | plain hc => exact absurd (List.cons.inj htext).1 hc
  | @literal a ms hrest hbehind =>
      cases ms with
      | nil => exact .inl ⟨a, List.append_nil _⟩
      | cons m ms =>
          have hlast : (chars (m :: ms)).getLast? = some quoteMark := by
            have hne : chars (m :: ms) ≠ [] := List.cons_ne_nil _ _
            rw [← List.getLast?_append_of_ne_nil (chars (literalMarks a)) hne, ← chars_append,
              htext, ← List.cons_append, List.getLast?_concat]
          obtain ⟨mid, b, heq⟩ := hrest.exists_eq_append_literalMarks hlast
          rw [heq] at hbehind ⊢
          cases mid with
          | nil => exact absurd rfl hbehind
          | cons m mid =>
              refine .inr ⟨a, m, mid, b, fun hm => hbehind (congrArg some hm), ?_⟩
              rw [List.append_assoc]

end Parts

end Condition

end SqlTemplate
