import Mathlib
import SqlTemplate.Proofs.Piece

/-!
# SQL with its values written into it

To write the values into an SQL text its placeholders have to be found again. The display reads
the text from the start and takes every question mark for a placeholder that it does not find in
a string literal or in a line comment (`Reading`, `display_eq_write`). What it takes for which of
them depends on the quote marks and hyphens before it only, wherever they stand; a block comment
is read like any other text.

So the display writes the values where the placeholders are if all question marks are read as what
they are (`display_of_allRead`). The converse holds as well, because the text of a value holds
something else than question marks: a value that is not written is missed
(`allRead_of_display_eq`). And they are read as what they are where every piece leads from code to
code, and no two hyphens of different pieces come together (`allRead_of_apart`).
-/

namespace SqlTemplate

open Text (quoteMark)

/-- What the display takes the next character of a text for. -/
inductive Reading where
  | code
  /-- Code behind a hyphen; with another hyphen a line comment begins. -/
  | hyphen
  | literal
  | lineComment
deriving DecidableEq

namespace Reading

/-- Whether a question mark is taken for a placeholder. -/
def isCode : Reading → Bool
  | .code | .hyphen => true
  | .literal | .lineComment => false

/-- The reading behind the character. -/
def next : Reading → Char → Reading
  | .code, c => if c = '-' then .hyphen else if c = quoteMark then .literal else .code
  | .hyphen, c => if c = '-' then .lineComment else if c = quoteMark then .literal else .code
  | .literal, c => if c = quoteMark then .code else .literal
  | .lineComment, c => if c = '\n' then .code else .lineComment

/-- The reading behind the text. -/
def after (m : Reading) (s : List Char) : Reading :=
  s.foldl next m

/-- How many question marks of the text are taken for placeholders. -/
def marksRead (m : Reading) : List Char → Nat
  | [] => 0
  | c :: s => (if c = '?' ∧ m.isCode then 1 else 0) + (m.next c).marksRead s

/-- The text with values in place of what is taken for placeholders, while there are any. -/
def write (m : Reading) (values : List Value) : List Char → List Char
  | [] => []
  | c :: s =>
    if c = '?' ∧ m.isCode then
      (values.head?.map fun v => v.literal.toList).getD [c] ++ (m.next c).write values.tail s
    else c :: (m.next c).write values s

theorem after_append (m : Reading) (s t : List Char) : m.after (s ++ t) = (m.after s).after t :=
  List.foldl_append

theorem marksRead_append (m : Reading) (s t : List Char) :
    m.marksRead (s ++ t) = m.marksRead s + (m.after s).marksRead t := by
  induction s generalizing m with
  | nil => exact (Nat.zero_add _).symm
  | cons c s ih =>
      rw [List.cons_append, marksRead, marksRead, ih, Nat.add_assoc]
      rfl

theorem marksRead_of_not_mem {s : List Char} (h : '?' ∉ s) (m : Reading) :
    m.marksRead s = 0 := by
  induction s generalizing m with
  | nil => rfl
  | cons c s ih =>
      rw [List.mem_cons, not_or] at h
      have hmark : ¬ (c = '?' ∧ m.isCode) := fun hmark => h.1 hmark.1.symm
      rw [marksRead, ih h.2, if_neg hmark]

theorem marksRead_le (m : Reading) (s : String) : m.marksRead s.toList ≤ marks s := by
  rw [marks]
  induction s.toList generalizing m with
  | nil => exact Nat.le_refl 0
  | cons c s ih =>
      have hs := ih (m.next c)
      rw [marksRead, List.count_cons]
      split
      next hmark =>
        rw [if_pos (beq_iff_eq.2 hmark.1)]
        omega
      next => omega

theorem write_append {m : Reading} {s : List Char} (h : m.marksRead s = 0)
    (values : List Value) (t : List Char) :
    m.write values (s ++ t) = s ++ (m.after s).write values t := by
  induction s generalizing m with
  | nil => rfl
  | cons c s ih =>
      obtain ⟨hc, hs⟩ := Nat.add_eq_zero_iff.1 h
      have hmark : ¬ (c = '?' ∧ m.isCode) := by
        intro hmark
        rw [if_pos hmark] at hc
        cases hc
      rw [List.cons_append, write, if_neg hmark, ih hs]
      rfl

/-- The display reads in this way. It looks at the character behind a hyphen at once. -/
theorem write_eq_displayFrom (m : Reading) (values : List Value) (s : List Char) :
    m.write values s =
      BoundSql.displayFrom (m = .literal)
        (m = .lineComment ∨ m = .hyphen ∧ s.head? = some '-') values s := by
  induction s generalizing m values with
  | nil => rfl
  | cons c s ih =>
      rw [write, BoundSql.displayFrom.eq_def, ih, ih]
      -- Quote marks, hyphens, question marks and line ends are what the reading looks at.
      by_cases hquote : c = '\''
      · subst hquote
        cases m <;> simp [next, isCode, quoteMark]
      by_cases hhyphen : c = '-'
      · subst hhyphen
        by_cases hsecond : s.head? = some '-'
        · cases m <;> simp [next, isCode, quoteMark, hsecond]
        · cases m <;> simp [next, isCode, quoteMark, hsecond]
      by_cases hmark : c = '?'
      · subst hmark
        cases m <;> cases values <;> simp [next, isCode, quoteMark]
      by_cases hline : c = '\n'
      · subst hline
        cases m <;> simp [next, isCode, quoteMark]
      · have hne : (c != '\n') = true := bne_iff_ne.2 hline
        cases m <;> simp [next, isCode, quoteMark, hquote, hhyphen, hmark, hline, hne]

end Reading

namespace BoundSql

theorem display_eq_write (q : BoundSql) :
    q.display = String.ofList (Reading.code.write q.values q.sql.toList) := by
  rw [Reading.write_eq_displayFrom, display]
  rfl

end BoundSql

/-- How many characters are no question marks. -/
def letters (s : List Char) : Nat :=
  s.countP (· ≠ '?')

theorem letters_append (s t : List Char) : letters (s ++ t) = letters s + letters t :=
  List.countP_append

theorem letters_pos_of_mem {c : Char} {s : List Char} (hc : c ≠ '?') (h : c ∈ s) :
    0 < letters s :=
  List.countP_pos_iff.2 ⟨c, h, decide_eq_true hc⟩

theorem letters_toDigits_pos (n : Nat) : 0 < letters (Nat.toDigits 10 n) := by
  obtain ⟨c, s, hs⟩ := List.exists_cons_of_ne_nil (Nat.toDigits_ne_nil (n := n) (b := 10))
  have hdigit : c.isDigit = true :=
    Nat.isDigit_of_mem_toDigits (by decide) (Nat.le_refl 10) (hs ▸ List.mem_cons_self)
  rw [hs]
  refine letters_pos_of_mem ?_ List.mem_cons_self
  rintro rfl
  cases hdigit

theorem Number.Scientific.letters_positional_pos (d : Scientific) : 0 < letters d.positional := by
  rw [positional]
  split
  next =>
    rw [letters_append]
    exact Nat.add_pos_left (letters_toDigits_pos _) _
  next =>
    dsimp only
    split
    next => exact letters_pos_of_mem (c := '.') (by decide) (by simp)
    next => exact letters_pos_of_mem (c := '.') (by decide) (by simp)

theorem Number.Binary64.letters_text_pos (x : Binary64) : 0 < letters x.text.toList := by
  rw [text]
  split
  next => decide
  next =>
    dsimp only
    split
    next =>
      rw [String.toList_append, letters_append]
      exact Nat.add_pos_right _ (by decide)
    next =>
      split
      next =>
        rw [String.toList_append, letters_append]
        exact Nat.add_pos_right _ (by decide)
      next =>
        rw [String.toList_append, letters_append, String.toList_ofList]
        exact Nat.add_pos_right _ (Scientific.letters_positional_pos _)

theorem Number.Decimal.letters_text_pos (d : Decimal) : 0 < letters d.text.toList := by
  rw [text, String.toList_ofList, chars, letters_append, letters_append]
  by_cases hscale : d.scale = 0
  · -- Without places the digits stand before the point.
    have hpadded : 0 < letters (List.replicate (d.scale + 1 - (Nat.toDigits 10 d.mantissa).length)
        '0' ++ Nat.toDigits 10 d.mantissa) := by
      rw [letters_append]
      exact Nat.add_pos_right _ (letters_toDigits_pos _)
    simp only [hscale, Nat.sub_zero, List.take_length] at hpadded ⊢
    omega
  · rw [if_neg hscale]
    exact Nat.add_pos_right _ (letters_pos_of_mem (c := '.') (by decide) List.mem_cons_self)

theorem letters_sqlQuote_pos (s : String) : 0 < letters (Text.sqlQuote s).toList := by
  rw [Text.sqlQuote, String.toList_ofList]
  exact letters_pos_of_mem (c := quoteMark) (by decide) List.mem_cons_self

theorem letters_toString_pos (n : Int) : 0 < letters (toString n).toList := by
  change 0 < letters n.repr.toList
  rw [Int.repr_eq_if]
  split
  next =>
    rw [Nat.toList_repr]
    exact letters_toDigits_pos _
  next =>
    rw [String.toList_append, letters_append, Nat.toList_repr]
    exact Nat.add_pos_right _ (letters_toDigits_pos _)

namespace Value

/-- The literal of a value holds something else than question marks. -/
theorem letters_literal_pos (v : Value) : 0 < letters v.literal.toList := by
  cases v with
  | null => decide
  | bool b => cases b <;> decide
  | int32 n => exact letters_toString_pos n.toInt
  | int64 n => exact letters_toString_pos n.toInt
  | float64 x => exact x.letters_text_pos
  | decimal d => exact d.letters_text_pos
  | string s => exact letters_sqlQuote_pos _
  | date d => exact letters_sqlQuote_pos _
  | dateTime t => exact letters_sqlQuote_pos _
  | time t => exact letters_sqlQuote_pos _
  | bytes bs => exact letters_pos_of_mem (c := '<') (by decide) (by simp [literal, text, textAs])
  | list items => exact letters_pos_of_mem (c := '[') (by decide) (by simp [literal, text, textAs])
  | map entries =>
      exact letters_pos_of_mem (c := '\x7b') (by decide) (by simp [literal, text, textAs, braced])
  | object o =>
      exact letters_pos_of_mem (c := '\x7b') (by decide) (by simp [literal, text, textAs, braced])

theorem literal_ne_placeholder (v : Value) : v.literal ≠ BoundSql.placeholder := by
  intro h
  have hletters := v.letters_literal_pos
  rw [h] at hletters
  exact absurd hletters (by decide)

end Value

namespace Reading

/-- Of the values as many are written as question marks are taken for placeholders. -/
theorem letters_write (m : Reading) (values : List Value) (s : List Char) :
    letters (m.write values s) =
      letters s + ((values.take (m.marksRead s)).map fun v => letters v.literal.toList).sum := by
  induction s generalizing m values with
  | nil => simp [write, marksRead, letters]
  | cons c s ih =>
      rw [write, marksRead]
      split
      next hmark =>
        rw [letters_append, ih, hmark.1]
        cases values with
        | nil => simp [letters]
        | cons v values => simp [letters, Nat.add_comm 1]; omega
      next =>
        rw [Nat.zero_add]
        change letters ([c] ++ _) = letters ([c] ++ s) + _
        rw [letters_append, letters_append, ih, Nat.add_assoc]

end Reading

namespace Piece

/-- The text of the piece with the value in place of the placeholder. -/
def inlinedText : Piece → String
  | .literal s | .connector s | .inserted s => s
  | .placeholder v _ => v.literal

/-- The SQL that is put together from the pieces with values in place of placeholders. -/
def inlined (ps : List Piece) : String :=
  String.ofList (ps.flatMap fun p => p.inlinedText.toList)

theorem toList_sql_placeholder (v : Value) (type : ValueType) :
    (placeholder v type).sql.sql.toList = ['?'] := by
  simp [sql, BoundSql.ofValue, BoundSql.placeholder]

/-- Whether question marks of the piece are taken for what they are: a placeholder for one, and
no other. -/
def isRead (m : Reading) : Piece → Bool
  | .literal s | .connector s | .inserted s => m.marksRead s.toList == 0
  | .placeholder .. => m.isCode

/-- The same of pieces that are read one behind the other. -/
def allRead (m : Reading) : List Piece → Bool
  | [] => true
  | p :: ps => p.isRead m && allRead (m.after p.sql.sql.toList) ps

end Piece

namespace BoundSql

open Piece

theorem write_ofPieces {m : Reading} {ps : List Piece} (h : allRead m ps = true) :
    m.write (ofPieces ps).values (ofPieces ps).sql.toList =
      ps.flatMap fun p => p.inlinedText.toList := by
  induction ps generalizing m with
  | nil => rfl
  | cons p ps ih =>
      obtain ⟨hp, hps⟩ := Bool.and_eq_true_iff.1 h
      rw [ofPieces_cons, append_values, append_sql, String.toList_append, List.flatMap_cons]
      cases p with
      | literal s | connector s | inserted s =>
          rw [← ih hps]
          exact Reading.write_append (beq_iff_eq.1 hp) _ _
      | placeholder v type =>
          have hmark : '?' = '?' ∧ m.isCode = true := ⟨rfl, hp⟩
          rw [← ih hps, toList_sql_placeholder, List.singleton_append, Reading.write, if_pos hmark]
          rfl

/-- Without one of them positive numbers have another sum. -/
theorem length_le_of_sum_take_eq {α : Type} {f : α → Nat} (hf : ∀ a, 0 < f a) {as : List α}
    {k : Nat} (h : ((as.take k).map f).sum = (as.map f).sum) : as.length ≤ k := by
  have hsum := congrArg (fun bs => (bs.map f).sum) (List.take_append_drop k as)
  simp only [List.map_append, List.sum_append, h] at hsum
  by_contra hk
  obtain ⟨a, bs, hdrop⟩ := List.exists_cons_of_length_pos (l := as.drop k)
    (by rw [List.length_drop]; omega)
  have ha := hf a
  rw [hdrop, List.map_cons, List.sum_cons] at hsum
  omega

/-- If all question marks are read as what they are, the values are written where their
placeholders are. -/
theorem display_of_allRead {ps : List Piece} (h : allRead .code ps = true) :
    (ofPieces ps).display = inlined ps := by
  rw [display_eq_write, write_ofPieces h, inlined]

theorem letters_inlined (ps : List Piece) :
    letters (inlined ps).toList = letters (ofPieces ps).sql.toList +
      ((ofPieces ps).values.map fun v => letters v.literal.toList).sum := by
  rw [inlined, String.toList_ofList]
  induction ps with
  | nil => rfl
  | cons p ps ih =>
      rw [List.flatMap_cons, letters_append, ih, ofPieces_cons, append_values, append_sql,
        String.toList_append, letters_append, List.map_append, List.sum_append]
      cases p with
      | literal s | connector s | inserted s => simp [Piece.sql, ofSql, inlinedText]; omega
      | placeholder v type => simp [Piece.sql, ofValue, placeholder, inlinedText, letters]; omega

/-- Where no text holds a question mark and all question marks are taken for placeholders, they
are read as what they are. -/
theorem allRead_of_marksRead_eq {ps : List Piece} (hsafe : ∀ p ∈ ps, p.IsSafe)
    (hliterals : ∀ s ∈ literals ps, '?' ∉ s.toList) {m : Reading}
    (h : m.marksRead (ofPieces ps).sql.toList = marks (ofPieces ps).sql) :
    allRead m ps = true := by
  induction ps generalizing m with
  | nil => rfl
  | cons p ps ih =>
      rw [ofPieces_cons, append_sql, marks_append, String.toList_append,
        Reading.marksRead_append] at h
      have hp := m.marksRead_le p.sql.sql
      have hps := (m.after p.sql.sql.toList).marksRead_le (ofPieces ps).sql
      have hliteral : ∀ s, p.literal? = some s → '?' ∉ s.toList := fun s hs =>
        hliterals s (List.mem_filterMap.2 ⟨p, List.mem_cons_self, hs⟩)
      rw [allRead, Bool.and_eq_true]
      refine ⟨?_, ih (fun q hq => hsafe q (List.mem_cons_of_mem p hq)) ?_ (by omega)⟩
      · cases p with
        | literal s | connector s =>
            exact beq_iff_eq.2 (Reading.marksRead_of_not_mem (hliteral s rfl) m)
        | inserted s =>
            have hs := (marks_eq_zero_iff s).1 (hsafe _ List.mem_cons_self)
            exact beq_iff_eq.2 (Reading.marksRead_of_not_mem hs m)
        | placeholder v type =>
            have hone : m.marksRead ['?'] = 1 := by
              rw [toList_sql_placeholder] at h hp hps
              have hmark : marks (Piece.placeholder v type).sql.sql = 1 := by
                rw [marks, toList_sql_placeholder]
                rfl
              omega
            cases m <;> first | rfl | cases hone
      · intro s hs
        obtain ⟨q, hq, hs⟩ := List.mem_filterMap.1 hs
        exact hliterals s (List.mem_filterMap.2 ⟨q, List.mem_cons_of_mem p hq, hs⟩)

/-- If the values are written where their placeholders are, and no text holds a question mark, all
question marks are read as what they are. -/
theorem allRead_of_display_eq {ps : List Piece} (hsafe : ∀ p ∈ ps, p.IsSafe)
    (hliterals : ∀ s ∈ literals ps, '?' ∉ s.toList)
    (h : (ofPieces ps).display = inlined ps) : allRead .code ps = true := by
  refine allRead_of_marksRead_eq hsafe hliterals ?_
  have hmarks := marks_ofPieces hsafe
  rw [(literalMarks_eq_zero_iff ps).2 hliterals, Nat.add_zero] at hmarks
  rw [hmarks]
  -- The text of a value that is not written would be missed.
  have hletters := letters_inlined ps
  rw [← h, display_eq_write, String.toList_ofList, Reading.letters_write] at hletters
  refine Nat.le_antisymm (hmarks ▸ Reading.code.marksRead_le (ofPieces ps).sql) ?_
  exact length_le_of_sum_take_eq Value.letters_literal_pos (Nat.add_left_cancel hletters)

end BoundSql

namespace Reading

/-- Behind the text, read as code, code goes on. -/
def EndsInCode (s : List Char) : Prop :=
  (code.after s).isCode = true

instance : DecidablePred EndsInCode := fun s =>
  inferInstanceAs (Decidable ((code.after s).isCode = true))

/-- Behind a hyphen a text is read like any code, unless it starts with a hyphen. -/
theorem hyphen_reads {s : List Char} (h : s.head? ≠ some '-') :
    (hyphen.after s).isCode = (code.after s).isCode ∧ hyphen.marksRead s = code.marksRead s := by
  cases s with
  | nil => exact ⟨rfl, rfl⟩
  | cons c s =>
      have hc : c ≠ '-' := fun hc => h (congrArg some hc)
      have hnext : hyphen.next c = code.next c := by simp [next, hc]
      constructor
      · rw [after, after, List.foldl_cons, List.foldl_cons, hnext]
      · rw [marksRead, marksRead, hnext]
        rfl

theorem eq_of_next_eq_hyphen {m : Reading} {c : Char} (h : m.next c = .hyphen) : c = '-' := by
  cases m <;> grind [next]

theorem getLast?_of_after_eq_hyphen {s : List Char} (h : code.after s = .hyphen) :
    s.getLast? = some '-' := by
  rcases List.eq_nil_or_concat s with rfl | ⟨s, c, rfl⟩
  · cases h
  · rw [List.concat_eq_append] at h ⊢
    rw [List.getLast?_concat]
    rw [after_append] at h
    exact congrArg some (eq_of_next_eq_hyphen h)

end Reading

namespace Piece

/-- No hyphen at the start of a piece stands behind a hyphen. -/
def Apart (ps : List Piece) : Prop :=
  ∀ before p after, ps = before ++ p :: after → p.sql.sql.toList.head? = some '-' →
    (BoundSql.ofPieces before).sql.toList.getLast? ≠ some '-'

theorem Apart.of_append {ps qs : List Piece} (h : Apart (ps ++ qs)) : Apart ps := by
  rintro before p after rfl
  exact h before p (after ++ qs) (by rw [List.append_assoc, List.cons_append])

theorem allRead_concat {m : Reading} {ps : List Piece} {s : String} (h : allRead m ps = true)
    (hs : '?' ∉ s.toList) : allRead m (ps ++ [.literal s]) = true := by
  induction ps generalizing m with
  | nil =>
      rw [List.nil_append, allRead, isRead, Reading.marksRead_of_not_mem hs]
      rfl
  | cons p ps ih =>
      obtain ⟨hp, hps⟩ := Bool.and_eq_true_iff.1 h
      exact Bool.and_eq_true_iff.2 ⟨hp, ih hps⟩

/-- Whether the piece, read as code, is read as what it is and ends in code. -/
def ReadsAsCode (p : Piece) : Prop :=
  p.isRead .code = true ∧ Reading.EndsInCode p.sql.sql.toList

/-- The same behind other pieces, unless two hyphens come together. -/
theorem ReadsAsCode.after {p : Piece} (h : p.ReadsAsCode) {s : List Char}
    (hs : Reading.EndsInCode s)
    (hapart : p.sql.sql.toList.head? = some '-' → s.getLast? ≠ some '-') :
    p.isRead (Reading.code.after s) = true ∧ Reading.EndsInCode (s ++ p.sql.sql.toList) := by
  rw [Reading.EndsInCode, Reading.after_append]
  rw [Reading.EndsInCode] at hs
  generalize hm : Reading.code.after s = m at hs ⊢
  cases m with
  | code => exact h
  | hyphen =>
      have hhead : p.sql.sql.toList.head? ≠ some '-' := fun hhead =>
        hapart hhead (Reading.getLast?_of_after_eq_hyphen hm)
      obtain ⟨hcode, hmarks⟩ := Reading.hyphen_reads hhead
      refine ⟨?_, hcode.trans h.2⟩
      cases p with
      | placeholder v type => rfl
      | literal s | connector s | inserted s => exact (congrArg (· == 0) hmarks).trans h.1
  | literal | lineComment => cases hs

/-- Pieces that are read as code are read as what they are one behind the other. -/
theorem allRead_of_apart (before : List Piece) {ps : List Piece} (hapart : Apart (before ++ ps))
    (hread : ∀ p ∈ ps, p.ReadsAsCode)
    (hbefore : Reading.EndsInCode (BoundSql.ofPieces before).sql.toList) :
    allRead (Reading.code.after (BoundSql.ofPieces before).sql.toList) ps = true := by
  induction ps generalizing before with
  | nil => rfl
  | cons p ps ih =>
      obtain ⟨hp, hend⟩ := (hread p List.mem_cons_self).after hbefore (hapart before p ps rfl)
      have hsql : (BoundSql.ofPieces (before ++ [p])).sql.toList =
          (BoundSql.ofPieces before).sql.toList ++ p.sql.sql.toList := by
        rw [BoundSql.ofPieces_append, BoundSql.ofPieces_singleton, BoundSql.append_sql,
          String.toList_append]
      have hps := ih (before ++ [p]) (by rwa [List.append_assoc])
        (fun q hq => hread q (List.mem_cons_of_mem p hq)) (by rwa [hsql])
      rw [hsql, Reading.after_append] at hps
      rw [allRead, hp, hps]
      rfl

end Piece

end SqlTemplate
