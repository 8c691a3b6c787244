import Mathlib
import SqlTemplate.Proofs.Checks
import SqlTemplate.Proofs.Clauses
import SqlTemplate.Proofs.Numerals
import SqlTemplate.Proofs.WrittenPaths

/-!
# Written terms

How a term is written in a condition (`Term.IsWritten`): a word, a quoted literal, a numeral or a
path. A written term is read as what it was written for (`Term.ofText_of_isWritten`), and a
condition is not cut in it: its marks are quiet (`Condition.Quiet`,
`Term.IsWritten.exists_quiet`), for whatever a literal holds is content.
-/

namespace SqlTemplate

namespace Text

/-- The text starts and ends with something that is no blank. -/
structure IsTrimmed (s : List Char) : Prop where
  ne_nil : s ≠ []
  head : ∀ c, s.head? = some c → isBlank c = false
  last : ∀ c, s.getLast? = some c → isBlank c = false

variable {s t : List Char}

theorem IsTrimmed.trim_eq (h : IsTrimmed s) : trim s = s := by
  obtain ⟨r, c, rfl⟩ := (List.eq_nil_or_concat s).resolve_left h.ne_nil
  rw [List.concat_eq_append] at h ⊢
  rw [trim_append_cons (h.last c List.getLast?_concat), trimEnd_nil]
  cases r with
  | nil => rfl
  | cons d r => rw [trimStart_cons_of_not_isBlank (h.head d rfl)]

/-- What is trimmed at both ends is trimmed, whatever stands between them. -/
theorem IsTrimmed.append (hs : IsTrimmed s) (ht : IsTrimmed t) (r : List Char) :
    IsTrimmed (s ++ r ++ t) where
  ne_nil := by simp [hs.ne_nil]
  head c hc := by
    obtain ⟨d, s, rfl⟩ := List.exists_cons_of_ne_nil hs.ne_nil
    exact hs.head c hc
  last c hc := by
    rw [List.getLast?_append_of_ne_nil _ ht.ne_nil] at hc
    exact ht.last c hc

theorem isTrimmed_of_forall (hne : s ≠ []) (h : ∀ c ∈ s, isBlank c = false) : IsTrimmed s where
  ne_nil := hne
  head c hc := h c (List.mem_of_head? hc)
  last c hc := h c (List.mem_of_getLast? hc)

theorem isTrimmed_quote (s : List Char) : IsTrimmed (quote s) := by
  have hmark : IsTrimmed [quoteMark] :=
    isTrimmed_of_forall (by simp) (List.forall_mem_singleton.2 (by decide))
  exact hmark.append hmark (double s)

end Text

namespace Condition

open Text (quoteMark)

/-- The characters that mean something in a condition, but for parentheses and quote marks. -/
def specials : List Char :=
  '"' :: '&' :: '|' :: Operator.starts

/-- A condition is not cut in what is marked so, and it passes the checks. -/
structure Quiet (ms : List Mark) : Prop where
  marked : Marked ms
  visible : ∀ m ∈ ms, m.visible ∉ specials
  calls : Calls (visibleChars ms)

variable {ms : List Mark}

theorem Quiet.not_mem_visibleChars (h : Quiet ms) {c : Char} (hc : c ∈ specials) :
    c ∉ visibleChars ms := by
  intro hmem
  obtain ⟨m, hm, rfl⟩ := List.mem_map.1 hmem
  exact h.visible m hm hc

theorem Quiet.passes (h : Quiet ms) : Passes (visibleChars ms) :=
  passes_of_not_mem (h.not_mem_visibleChars (by decide)) (h.not_mem_visibleChars (by decide))
    (h.not_mem_visibleChars (by decide)) h.calls

theorem Quiet.head?_ne (h : Quiet ms) : (chars ms).head? ≠ some '!' := by
  intro hhead
  cases h.marked with
  | nil => cases hhead
  | plain =>
      cases hhead
      exact h.visible _ List.mem_cons_self (by decide)
  | literal => cases hhead

theorem quiet_plainMarks {s : List Char} (hvisible : ∀ c ∈ s, c ∉ quoteMark :: specials)
    (hcalls : Calls s) : Quiet (plainMarks s) where
  marked := marked_plainMarks fun h => hvisible _ h List.mem_cons_self
  visible := List.forall_mem_map.2 fun c hc h => hvisible c hc (List.mem_cons_of_mem _ h)
  calls := by rwa [visibleChars_plainMarks]

theorem quiet_literalMarks (s : List Char) : Quiet (literalMarks s) where
  marked := marked_literalMarks s
  visible m hm := by
    rcases visible_of_mem_literalMarks hm with h | h <;> rw [h] <;> decide
  calls := by
    have hvisible : ∀ c ∈ visibleChars (literalMarks s), c = quoteMark ∨ c = '_' :=
      List.forall_mem_map.2 fun m hm => visible_of_mem_literalMarks hm
    refine calls_of_not_mem (fun h => ?_) fun h => ?_
    · rcases hvisible _ h with h | h <;> cases h
    · rcases hvisible _ h with h | h <;> cases h

end Condition

/-- An index is digits, and names are identifiers. -/
def Segment.IsPlain : Segment → Prop
  | .property name | .method name => Text.isIdentifier name.toList = true
  | .index raw => Term.isDigits raw.toList = true

instance : DecidablePred Segment.IsPlain
  | .property name | .method name =>
    inferInstanceAs (Decidable (Text.isIdentifier name.toList = true))
  | .index raw => inferInstanceAs (Decidable (Term.isDigits raw.toList = true))

/-- The path starts at an argument or at a loop element, and its steps are plain. -/
structure Path.IsPlain (p : Path) : Prop where
  root : ∀ name, p.root = .argument name → Text.isIdentifier name.toList = true
  segments : ∀ s ∈ p.segments, s.IsPlain

section Paths

variable {s : Segment} {p : Path} {c : Char}

theorem Text.continuesIdentifier_of_isDigit (h : c.isDigit = true) :
    continuesIdentifier c = true := by
  have hcode : c.toNat < 0x80 := by
    simp [Char.isDigit, UInt32.le_iff_toNat_le] at h
    omega
  rw [continuesIdentifier, isNumeric, if_pos hcode, h, Bool.or_true, Bool.true_or]

theorem Text.isDigit_eq_false_of_startsIdentifier (h : startsIdentifier c = true) :
    c.isDigit = false := by
  by_contra hdigit
  have hcode : 48 ≤ c.toNat ∧ c.toNat ≤ 57 := by
    simpa [Char.isDigit, UInt32.le_iff_toNat_le] using hdigit
  have halpha : c.isAlpha = true := by
    have hunderscore : c ≠ '_' := by
      rintro rfl
      exact absurd hcode (by decide)
    rwa [startsIdentifier, isAlphabetic, if_pos (by omega), beq_eq_false_iff_ne.2 hunderscore,
      Bool.or_false] at h
  simp [Char.isAlpha, Char.isUpper, Char.isLower, UInt32.le_iff_toNat_le] at halpha
  omega

theorem Segment.IsPlain.isWritable (h : s.IsPlain) : s.IsWritable := by
  cases s with
  | property name => exact h
  | method name => exact h
  | index raw =>
      obtain ⟨hne, hdigits⟩ := Term.isDigit_of_isDigits h
      refine ⟨hne, ?_, ?_⟩
      · intro c hc hmem
        have hdigit := hdigits c hmem
        fin_cases hc <;> exact absurd hdigit (by decide)
      · exact Text.trim_of_forall_isBlank_eq_false fun c hc =>
          Text.isBlank_eq_false_of_isDigit (hdigits c hc)

theorem Path.IsPlain.isWritable (h : p.IsPlain) : p.IsWritable :=
  ⟨h.root, fun s hs => (h.segments s hs).isWritable⟩

/-- What a plain path is written with. -/
def IsPathChar (c : Char) : Prop :=
  Text.continuesIdentifier c = true ∨ c ∈ ['#', '.', '(', ')']

theorem IsPathChar.isBlank_eq_false (h : IsPathChar c) : Text.isBlank c = false := by
  rcases h with h | h
  · exact Text.isBlank_eq_false_of_continuesIdentifier h
  · fin_cases h <;> rfl

theorem IsPathChar.not_mem (h : IsPathChar c) : c ∉ Text.quoteMark :: Condition.specials := by
  intro hmem
  rcases h with h | h
  · rw [Condition.specials, Operator.starts] at hmem
    fin_cases hmem <;> exact absurd h (by decide)
  · fin_cases h <;> exact absurd hmem (by decide)

theorem isPathChar_of_isIdentifier {s : List Char} (h : Text.isIdentifier s = true) :
    ∀ c ∈ s, IsPathChar c :=
  fun c hc => .inl (List.all_eq_true.1 (Text.all_continuesIdentifier_of_isIdentifier h) c hc)

theorem calls_of_isIdentifier {s : List Char} (h : Text.isIdentifier s = true) :
    Condition.Calls s :=
  Condition.calls_of_not_mem (Text.not_mem_of_isIdentifier h (by decide))
    (Text.not_mem_of_isIdentifier h (by decide))

/-- What a part of a plain path is. -/
structure IsPathText (s : List Char) : Prop where
  chars : ∀ c ∈ s, IsPathChar c
  calls : Condition.Calls s

theorem IsPathText.append {s t : List Char} (hs : IsPathText s) (ht : IsPathText t) :
    IsPathText (s ++ t) where
  chars c hc := (List.mem_append.1 hc).elim (hs.chars c) (ht.chars c)
  calls := hs.calls.append ht.calls

theorem Segment.IsPlain.isPathText (h : s.IsPlain) : IsPathText s.text.toList := by
  cases s with
  | property name => exact ⟨isPathChar_of_isIdentifier h, calls_of_isIdentifier h⟩
  | method name =>
      rw [Segment.toList_text_method]
      refine .append ⟨isPathChar_of_isIdentifier h, calls_of_isIdentifier h⟩
        ⟨fun c hc => .inr ?_, Condition.calls_parentheses⟩
      fin_cases hc <;> decide
  | index raw =>
      obtain ⟨-, hdigits⟩ := Term.isDigit_of_isDigits h
      have hparenthesis : ∀ c ∈ ['(', ')'], c ∉ raw.toList := by
        intro c hc hmem
        fin_cases hc <;> exact absurd (hdigits _ hmem) (by decide)
      rw [Segment.toList_text_index]
      refine ⟨fun c hc => ?_, Condition.calls_get (hparenthesis _ (by decide))
        (hparenthesis _ (by decide))⟩
      rcases List.mem_append.1 hc with hc | hc
      · rcases List.mem_append.1 hc with hc | hc
        · fin_cases hc
          · exact .inl (by decide)
          · exact .inl (by decide)
          · exact .inl (by decide)
          · exact .inr (by decide)
        · exact .inl (Text.continuesIdentifier_of_isDigit (hdigits c hc))
      · rw [List.mem_singleton.1 hc]
        exact .inr (by decide)

theorem Path.IsPlain.isPathText (h : p.IsPlain) : IsPathText p.text.toList := by
  have hpoint : IsPathText ['.'] :=
    ⟨List.forall_mem_singleton.2 (.inr (by decide)),
      Condition.calls_of_not_mem (by decide) (by decide)⟩
  have hnil : IsPathText [] :=
    ⟨List.forall_mem_nil _, Condition.calls_of_not_mem List.not_mem_nil List.not_mem_nil⟩
  rw [Path.toList_text]
  refine Text.intercalate_of_append hnil (fun _ _ => .append) hpoint ?_
  refine List.forall_mem_cons.2 ⟨?_, List.forall_mem_map.2 fun s hs =>
    (h.segments s hs).isPathText⟩
  cases hroot : p.root with
  | argument name =>
      have hname := h.root name hroot
      exact ⟨isPathChar_of_isIdentifier hname, calls_of_isIdentifier hname⟩
  | loop =>
      refine ⟨fun c hc => ?_, Condition.calls_of_not_mem (by decide) (by decide)⟩
      have hchars : c = '#' ∨ Text.continuesIdentifier c = true := by
        fin_cases hc
        · exact .inl rfl
        all_goals exact .inr (by decide)
      rcases hchars with rfl | hc
      · exact .inr (by decide)
      · exact .inl hc

/-- A path text starts with a letter, an underscore or a number sign. -/
theorem Path.IsPlain.exists_cons (h : p.IsPlain) :
    ∃ c s, p.text.toList = c :: s ∧ (Text.startsIdentifier c = true ∨ c = '#') := by
  obtain ⟨r, hr⟩ : ∃ r, p.text.toList = p.root.text.toList ++ r := by
    rw [Path.toList_text, Path.parts]
    cases p.segments with
    | nil => exact ⟨[], by simp⟩
    | cons s segments => exact ⟨_, by rw [List.map_cons, List.intercalate_cons_cons,
        List.append_assoc]⟩
  cases hroot : p.root with
  | loop => exact ⟨'#', _, by rw [hr, hroot]; rfl, .inr rfl⟩
  | argument name =>
      have hname := h.root name hroot
      rw [hroot] at hr
      cases htext : name.toList with
      | nil =>
          rw [htext] at hname
          cases hname
      | cons c s =>
          rw [htext, Text.isIdentifier_cons, Bool.and_eq_true] at hname
          exact ⟨c, s ++ r, by rw [hr, PathRoot.text, htext, List.cons_append], .inl hname.1⟩

end Paths

namespace Term

open Condition (Quiet literalMarks plainMarks chars)

/-- The words that a condition does not take for paths. -/
def words : List String :=
  ["null", "true", "false"]

/-- A path is none of the words, whatever case its letters have. -/
def IsNoWord (s : List Char) : Prop :=
  ∀ w ∈ words, s.map Char.toLower ≠ w.toList

instance (s : List Char) : Decidable (IsNoWord s) :=
  inferInstanceAs (Decidable (∀ w ∈ words, s.map Char.toLower ≠ w.toList))

/-- The term is written so in a condition. -/
inductive IsWritten : Term → List Char → Prop where
  | null : IsWritten .null "null".toList
  | bool (b : Bool) : IsWritten (.bool b) (if b then "true" else "false").toList
  | string (s : String) : IsWritten (.string s) (Text.quote s.toList)
  | number {n : Number.Numeral} {d : Number.Decimal} (h : n.Denotes d) :
      IsWritten (.number d) n.text
  | path {p : Path} (h : p.IsPlain) (hword : IsNoWord p.text.toList) :
      IsWritten (.path p) p.text.toList

section Reading

variable {s : List Char} {c : Char}

theorem ofWord?_eq_none (h : IsNoWord s) : ofWord? s = none := by
  have hne : ∀ w ∈ words, String.ofList (s.map Char.toLower) ≠ w := by
    intro w hw heq
    refine h w hw ?_
    rw [← heq, String.toList_ofList]
  rw [ofWord?]
  split
  next heq => exact absurd heq (hne _ (by simp [words]))
  next heq => exact absurd heq (hne _ (by simp [words]))
  next heq => exact absurd heq (hne _ (by simp [words]))
  next => rfl

/-- What does not start like a word is none. -/
theorem isNoWord_cons (h : c.toLower ∉ ['n', 't', 'f']) (s : List Char) : IsNoWord (c :: s) := by
  intro w hw heq
  refine h ?_
  rw [words] at hw
  fin_cases hw
  all_goals
    rw [List.map_cons] at heq
    rw [(List.cons.inj heq).1]
    decide

/-- A date literal holds a blank. -/
theorem dateContent?_eq_none (h : ∀ c ∈ s, Text.isBlank c = false) : dateContent? s = none := by
  have hblank : (s.splitAt 4).2.head?.any Text.isBlank = false := by
    rw [List.splitAt_eq]
    cases hd : s.drop 4 with
    | nil => rfl
    | cons c r =>
        exact h c (List.mem_of_mem_drop (by rw [hd]; exact List.mem_cons_self))
  rw [dateContent?]
  dsimp only
  rw [hblank, if_neg (by simp)]

/-- A number starts with a digit or a minus sign. -/
theorem isNumber_cons_eq_false (hdigit : c.isDigit = false) (hsign : c ≠ '-') (s : List Char) :
    isNumber (c :: s) = false := by
  have hdigits : ∀ r, isDigits (c :: r) = false := by
    intro r
    rw [isDigits, List.all_cons, hdigit, Bool.false_and, Bool.and_false]
  rw [isNumber]
  · split
    next => exact hdigits s
    next whole places hcut =>
      obtain ⟨-, happend⟩ := Text.eq_append_of_cutAtChar?_eq_some hcut
      cases whole with
      | nil => rfl
      | cons d whole =>
          obtain ⟨rfl, -⟩ := List.cons.inj happend
          rw [hdigits whole, Bool.false_and]
  · exact fun r heq => hsign (List.cons.inj heq).1

theorem ofText_cons (htrim : Text.trim (c :: s) = c :: s) (hword : IsNoWord (c :: s)) :
    ofText (c :: s) = if c = Text.quoteMark then ofQuoted (c :: s) s else ofUnquoted (c :: s) := by
  rw [ofText, htrim]
  dsimp only
  rw [ofWord?_eq_none hword]

end Reading

section Written

variable {t : Term} {s : List Char}

theorem IsWritten.isTrimmed (h : t.IsWritten s) : Text.IsTrimmed s := by
  cases h with
  | null => exact Text.isTrimmed_of_forall (by decide) fun c hc => by fin_cases hc <;> rfl
  | bool b =>
      cases b with
      | true => exact Text.isTrimmed_of_forall (by decide) fun c hc => by fin_cases hc <;> rfl
      | false => exact Text.isTrimmed_of_forall (by decide) fun c hc => by fin_cases hc <;> rfl
  | string s => exact Text.isTrimmed_quote s.toList
  | @number n d h =>
      refine Text.isTrimmed_of_forall ?_ fun c hc => ?_
      · obtain ⟨c, r, hunsigned, -⟩ := n.exists_cons_of_unsigned
        rw [Number.Numeral.text, hunsigned]
        simp
      · rcases Number.Numeral.mem_text hc with hc | rfl | rfl
        · exact Text.isBlank_eq_false_of_isDigit hc
        · decide
        · decide
  | @path p h =>
      refine Text.isTrimmed_of_forall ?_ fun c hc => (h.isPathText.chars c hc).isBlank_eq_false
      obtain ⟨c, r, htext, -⟩ := h.exists_cons
      rw [htext]
      exact List.cons_ne_nil c r

/-- No part of a written term is taken for something else in a condition. -/
theorem IsWritten.exists_quiet (h : t.IsWritten s) : ∃ ms, chars ms = s ∧ Quiet ms := by
  have hplain : ∀ r : List Char, (∀ c ∈ r, c ∉ Text.quoteMark :: Condition.specials) →
      Condition.Calls r → ∃ ms, chars ms = r ∧ Quiet ms :=
    fun r hvisible hcalls =>
      ⟨plainMarks r, Condition.chars_plainMarks r, Condition.quiet_plainMarks hvisible hcalls⟩
  cases h with
  | null =>
      refine hplain _ (fun c hc => ?_) (Condition.calls_of_not_mem (by decide) (by decide))
      fin_cases hc <;> decide
  | bool b =>
      cases b with
      | true =>
          refine hplain _ (fun c hc => ?_) (Condition.calls_of_not_mem (by decide) (by decide))
          fin_cases hc <;> decide
      | false =>
          refine hplain _ (fun c hc => ?_) (Condition.calls_of_not_mem (by decide) (by decide))
          fin_cases hc <;> decide
  | string s =>
      exact ⟨literalMarks s.toList, Condition.chars_literalMarks _,
        Condition.quiet_literalMarks _⟩
  | @number n d h =>
      have hchars : ∀ c ∈ n.text, c ∉ '(' :: ')' :: Text.quoteMark :: Condition.specials := by
        intro c hc
        rcases Number.Numeral.mem_text hc with hdigit | rfl | rfl
        · intro hmem
          rw [Condition.specials, Operator.starts] at hmem
          fin_cases hmem <;> exact absurd hdigit (by decide)
        · decide
        · decide
      refine hplain _ (fun c hc h => hchars c hc (by simp_all)) (Condition.calls_of_not_mem ?_ ?_)
      · exact fun h => hchars _ h (by decide)
      · exact fun h => hchars _ h (by decide)
  | path h =>
      exact hplain _ (fun c hc => (h.isPathText.chars c hc).not_mem) h.isPathText.calls

theorem ofText_number {n : Number.Numeral} {d : Number.Decimal} (h : n.Denotes d) :
    ofText n.text = .ok (.number d) := by
  obtain ⟨c, r, htext, hc⟩ : ∃ c r, n.text = c :: r ∧ (c.isDigit = true ∨ c = '-') := by
    obtain ⟨c, r, hunsigned, hc⟩ := n.exists_cons_of_unsigned
    rw [Number.Numeral.text, hunsigned]
    cases n.negative with
    | true => exact ⟨'-', c :: r, rfl, .inr rfl⟩
    | false => exact ⟨c, r, rfl, .inl hc⟩
  have hword : c.toLower ∉ ['n', 't', 'f'] := by
    rcases hc with hc | rfl
    · rw [Text.toLower_of_isDigit hc]
      intro hmem
      fin_cases hmem <;> exact absurd hc (by decide)
    · decide
  have hquote : c ≠ Text.quoteMark := by
    rintro rfl
    rcases hc with hc | hc
    · exact absurd hc (by decide)
    · cases hc
  have htrimmed := (IsWritten.number h).isTrimmed
  have hblank : ∀ c ∈ n.text, Text.isBlank c = false := by
    intro c hc
    rcases Number.Numeral.mem_text hc with hc | rfl | rfl
    · exact Text.isBlank_eq_false_of_isDigit hc
    · decide
    · decide
  have hdate := dateContent?_eq_none hblank
  have hnumber := n.isNumber_text
  have hread := Number.Numeral.ofText?_text h
  rw [htext] at htrimmed hdate hnumber hread ⊢
  rw [ofText_cons htrimmed.trim_eq (isNoWord_cons hword r), if_neg hquote, ofUnquoted, hdate]
  dsimp only
  rw [if_pos hnumber, hread]
  rfl

theorem ofText_path {p : Path} (h : p.IsPlain) (hword : IsNoWord p.text.toList) :
    ofText p.text.toList = .ok (.path p) := by
  have htrimmed := (IsWritten.path h hword).isTrimmed
  have hdate := dateContent?_eq_none fun c hc => (h.isPathText.chars c hc).isBlank_eq_false
  have hread := Path.ofText_text h.isWritable
  obtain ⟨c, r, htext, hc⟩ := h.exists_cons
  have hquote : c ≠ Text.quoteMark := by
    rintro rfl
    rcases hc with hc | hc
    · exact absurd hc (by decide)
    · cases hc
  have hnumber : isNumber (c :: r) = false := by
    rcases hc with hc | rfl
    · refine isNumber_cons_eq_false ?_ ?_ r
      · exact Text.isDigit_eq_false_of_startsIdentifier hc
      · rintro rfl
        exact absurd hc (by decide)
    · exact isNumber_cons_eq_false (by decide) (by decide) r
  rw [htext] at htrimmed hdate hread hword ⊢
  rw [ofText_cons htrimmed.trim_eq hword, if_neg hquote, ofUnquoted, hdate]
  dsimp only
  rw [hnumber, if_neg Bool.false_ne_true, hread]
  rfl

/-- A written term is read as what it was written for. -/
theorem ofText_of_isWritten (h : t.IsWritten s) : ofText s = .ok t := by
  cases h with
  | null => rfl
  | bool b =>
      cases b with
      | true => rfl
      | false => rfl
  | string s =>
      have hword : IsNoWord (Text.quote s.toList) := isNoWord_cons (by decide) _
      rw [Text.quote] at hword ⊢
      rw [ofText_cons (Text.trim_quote s.toList) hword, if_pos rfl, ofQuoted, Text.dropEnd?_append]
      dsimp only
      rw [Text.undouble_double, String.ofList_toList]
  | number h => exact ofText_number h
  | path h hword => exact ofText_path h hword

end Written

end Term

end SqlTemplate
