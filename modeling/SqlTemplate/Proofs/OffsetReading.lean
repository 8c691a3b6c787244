import Mathlib
import SqlTemplate.Proofs.MaskedOffsets
import SqlTemplate.Proofs.PathTexts

/-!
# Reading by offsets

A condition may be read from its text and its mask: what is looked for is looked for in the mask,
and the text is cut at the offsets that are found (`Condition.ofTextByOffsets`). All of these cuts
can be made, and the condition is the one that is read from the marked text
(`Condition.gives_ofTextByOffsets`). The argument follows the reading: a term, a clause and a list of
clauses give what they give otherwise, and their cuts are between the ends of their part.
-/

namespace SqlTemplate

open String (utf8Len)
open Text (Part quoteMark)
open Cutting (Gives)

namespace Term

variable {p : Part} {s rest : List Char} {start : Nat}

/-- Reads a part that starts with a quote mark. -/
def ofQuotedPart (p : Part) : Cutting Term :=
  if utf8Len p.text < 2 ∨ p.text.getLast? ≠ some quoteMark then
    .ofExcept (.error (.unterminatedLiteral (String.ofList p.text)))
  else do
    let content ← Cutting.slice p 1 (utf8Len p.text - 1)
    return .string (String.ofList (Text.undouble content.text))

/-- Reads a part with blanks around it. -/
def ofPart (p : Part) : Cutting Term :=
  let p := p.trim
  if p.text.isEmpty then .ofExcept (.error .emptyTerm)
  else
    match ofWord? p.text with
    | some t => return t
    | none =>
      if p.text.head? = some quoteMark then ofQuotedPart p else .ofExcept (ofUnquoted p.text)

/-- The content of a literal stands between its first byte and its last one. -/
theorem gives_ofQuotedPart_append {content : List Char}
    (hp : Part.StandsIn ⟨start, quoteMark :: (content ++ [quoteMark])⟩ s) :
    Gives s start (Part.stop ⟨start, quoteMark :: (content ++ [quoteMark])⟩)
      (ofQuotedPart ⟨start, quoteMark :: (content ++ [quoteMark])⟩)
      (.ok (.string (String.ofList (Text.undouble content)))) := by
  have hlength : utf8Len (quoteMark :: (content ++ [quoteMark])) =
      utf8Len ([quoteMark] ++ content) + 1 := by
    rw [← List.cons_append, String.utf8Len_append]
    rfl
  have hclosed : ¬(utf8Len (quoteMark :: (content ++ [quoteMark])) < 2 ∨
      (quoteMark :: (content ++ [quoteMark])).getLast? ≠ some quoteMark) := by
    have hone : utf8Len [quoteMark] = 1 := by decide
    rw [hlength, String.utf8Len_append, hone, ← List.cons_append, List.getLast?_concat]
    simp
  have hstop : start + utf8Len ([quoteMark] ++ content) ≤
      Part.stop ⟨start, quoteMark :: (content ++ [quoteMark])⟩ := by
    rw [Part.stop, hlength, ← Nat.add_assoc]
    exact Nat.le_succ _
  rw [ofQuotedPart, if_neg hclosed, hlength, Nat.add_sub_cancel]
  refine .mono ?_ (Nat.le_add_right start (utf8Len [quoteMark])) hstop
  exact .slice_bind hp (a := [quoteMark]) rfl (.ofExcept s _ _ (.ok _))

theorem gives_ofQuotedPart (hp : Part.StandsIn ⟨start, quoteMark :: rest⟩ s) :
    Gives s start (Part.stop ⟨start, quoteMark :: rest⟩) (ofQuotedPart ⟨start, quoteMark :: rest⟩)
      (ofQuoted (quoteMark :: rest) rest) := by
  rcases List.eq_nil_or_concat' rest with rfl | ⟨content, c, rfl⟩
  · exact .ofExcept s _ _ _
  · rw [ofQuoted]
    by_cases hc : c = quoteMark
    · subst hc
      rw [Text.dropEnd?_append]
      exact gives_ofQuotedPart_append hp
    · have hnone : Text.dropEnd? [quoteMark] (content ++ [c]) = none := by
        rw [Option.eq_none_iff_forall_ne_some]
        intro r hr
        rw [Text.dropEnd?_eq_some_iff] at hr
        exact hc (List.singleton_inj.1 (List.append_inj_right' hr rfl))
      have hopen : (quoteMark :: (content ++ [c])).getLast? ≠ some quoteMark := by
        rw [← List.cons_append, List.getLast?_concat]
        exact fun h => hc (Option.some.inj h)
      rw [ofQuotedPart, if_pos (.inr hopen), hnone]
      exact .ofExcept s _ _ _

theorem gives_ofPart (hp : p.StandsIn s) : Gives s p.start p.stop (ofPart p) (ofText p.text) := by
  have hp := hp.trim
  have htext : Text.trim p.text = p.trim.text := rfl
  refine .mono ?_ p.start_le_trim p.stop_trim_le
  rw [ofPart, ofText, htext]
  generalize p.trim = q at hp
  obtain ⟨start, text⟩ := q
  cases text with
  | nil => exact .ofExcept s _ _ _
  | cons c rest =>
      dsimp only
      rw [if_neg (by simp)]
      cases ofWord? (c :: rest) with
      | some t => exact .ofExcept s _ _ _
      | none =>
          dsimp only
          by_cases hc : c = quoteMark
          · subst hc
            rw [List.head?_cons, if_pos rfl, if_pos rfl]
            exact gives_ofQuotedPart hp
          · rw [List.head?_cons, if_neg fun h => hc (Option.some.inj h), if_neg hc]
            exact .ofExcept s _ _ _

/-- A term is read from the part that is taken. -/
theorem gives_slice_bind_ofPart {a t b : List Char} (hp : p.StandsIn s) (h : a ++ t ++ b = p.text) :
    Gives s (p.start + utf8Len a) (p.start + utf8Len (a ++ t))
      (Cutting.slice p (utf8Len a) (utf8Len (a ++ t)) >>= ofPart) (ofText t) := by
  refine .slice_bind hp h ((gives_ofPart (hp.part h)).mono (Nat.le_refl _) ?_)
  rw [String.utf8Len_append, Part.stop, Nat.add_assoc]

end Term

namespace Clause

open Condition (Mark chars maskedChars visibleChars)

variable {p : Part} {s : List Char} {ms : List Mark}

/-- What a part without an operator says. -/
def standaloneOfPart (p : Part) : Cutting ClauseKind :=
  match p.text with
  | '!' :: term => do
    let term ← Term.ofPart ⟨p.start + '!'.utf8Size, term⟩
    return .standalone true term
  | _ => do
    let term ← Term.ofPart p
    return .standalone false term

/-- Reads the terms in front of an operator at the offset and behind it. -/
def comparisonOfPart (p : Part) (offset : Nat) (operator : Operator) : Cutting ClauseKind := do
  let left ← Cutting.slice p 0 offset >>= Term.ofPart
  let right ← Cutting.slice p (offset + utf8Len operator.symbol.toList) (utf8Len p.text) >>=
    Term.ofPart
  return .comparison left operator right

/-- What a part says that has the given mask. -/
def kindOfPart (p : Part) (shown : List Char) : Cutting ClauseKind :=
  match findOperator? shown with
  | some (offset, operator) => comparisonOfPart p offset operator
  | none => standaloneOfPart p.trim

/-- Reads a part that has the given mask. -/
def ofPart (p : Part) (shown : List Char) : Cutting Clause := do
  let kind ← kindOfPart p shown
  return ⟨String.ofList (Text.trim p.text), kind⟩

/-- Reads a clause from the parts of a text and of its mask between two offsets, or behind one. -/
def ofCut (s shown : List Char) (start : Nat) (stop : Option Nat) : Cutting Clause := do
  let part ← Cutting.slice ⟨0, s⟩ start (stop.getD (utf8Len s))
  let shown ← Cutting.sliceOther shown start (stop.getD (utf8Len shown))
  ofPart part shown

theorem gives_standaloneOfPart (hp : p.StandsIn s) :
    Gives s p.start p.stop (standaloneOfPart p) (standaloneOfText p.text) := by
  obtain ⟨start, text⟩ := p
  have hle := Part.start_le_stop ⟨start, text⟩
  rw [standaloneOfPart.eq_def]
  dsimp only at hle ⊢
  split
  next term =>
    have hterm := hp.part (a := ['!']) (t := term) (List.append_nil _)
    rw [standaloneOfText]
    refine .map (.mono (Term.gives_ofPart hterm) (Nat.le_add_right _ _) ?_) hle _
    rw [Part.stop, Part.stop, Nat.add_assoc, Nat.add_comm (utf8Len ['!'])]
    rfl
  next hne =>
    rw [standaloneOfText.eq_2 text hne]
    exact (Term.gives_ofPart hp).map hle _

/-- The terms are read one behind the other. -/
theorem gives_comparisonOfPart {a b : List Char} {operator : Operator} (hp : p.StandsIn s)
    (h : a ++ operator.symbol.toList ++ b = p.text) :
    Gives s p.start p.stop (comparisonOfPart p (utf8Len a) operator)
      (Term.ofText a >>= fun left => Term.ofText b >>= fun right =>
        .ok (.comparison left operator right)) := by
  have hleft : Gives s (p.start + utf8Len []) (p.start + utf8Len ([] ++ a)) _ _ :=
    Term.gives_slice_bind_ofPart hp (b := operator.symbol.toList ++ b) (by simp [← h])
  have hright : Gives s (p.start + utf8Len (a ++ operator.symbol.toList))
      (p.start + utf8Len (a ++ operator.symbol.toList ++ b)) _ _ :=
    Term.gives_slice_bind_ofPart hp (b := []) (by simp [← h])
  have hbehind : p.start + utf8Len ([] ++ a) ≤
      p.start + utf8Len (a ++ operator.symbol.toList) := by simp
  have hstop : p.start + utf8Len (a ++ operator.symbol.toList) ≤ p.stop := by
    rw [Part.stop, ← h, String.utf8Len_append _ b, ← Nat.add_assoc]
    exact Nat.le_add_right _ _
  rw [h] at hright
  rw [comparisonOfPart, ← String.utf8Len_append]
  refine hleft.bind (Nat.le_add_right _ _) (hbehind.trans hstop) fun left _ => ?_
  exact (hright.mono hbehind (Nat.le_refl _)).bind (hbehind.trans hstop) (Nat.le_refl _)
    fun right _ => .ofExcept s _ _ (.ok _)

theorem gives_kindOfPart (hp : p.StandsIn s) (hms : chars ms = p.text) :
    Gives s p.start p.stop (kindOfPart p (maskedChars ms)) (kindOfMarks ms) := by
  rw [kindOfPart, kindOfMarks, findOperator?_maskedChars]
  cases hcut : cutAtOperator? ms with
  | none =>
      rw [hms]
      exact (gives_standaloneOfPart hp.trim).mono p.start_le_trim p.stop_trim_le
  | some cut =>
      obtain ⟨left, operator, right⟩ := cut
      obtain ⟨mid, rfl, hmid, -⟩ := eq_append_of_cutAtOperator?_eq_some hcut
      have hsymbol := Condition.chars_eq_of_visibleChars_eq hmid operator.not_mem_symbol
      rw [Condition.chars_append, Condition.chars_append, hsymbol] at hms
      exact gives_comparisonOfPart hp hms

theorem gives_ofPart (hp : p.StandsIn s) (hms : chars ms = p.text) :
    Gives s p.start p.stop (ofPart p (maskedChars ms)) (ofMarks ms) := by
  rw [ofPart, ofMarks, hms]
  exact (gives_kindOfPart hp hms).bind p.start_le_stop (Nat.le_refl _) fun kind _ =>
    .ofExcept s _ _ (.ok _)

section Cut

variable {all before part after : List Mark}

/-- A clause is read from the parts that stand at the same place in the text and in its mask. -/
theorem gives_ofCut_some (h : before ++ part ++ after = all) :
    Gives (chars all) (utf8Len (chars before)) (utf8Len (chars (before ++ part)))
      (ofCut (chars all) (maskedChars all) (utf8Len (chars before))
        (some (utf8Len (chars (before ++ part))))) (ofMarks part) := by
  have hchars : chars before ++ chars part ++ chars after = chars all := by simp [← h]
  have hmasked : maskedChars before ++ maskedChars part ++ maskedChars after = maskedChars all := by
    simp [← h]
  have hwhole := Part.standsIn_whole (chars all)
  have hpart := gives_ofPart (hwhole.part hchars) (rfl : chars part = _)
  have hother := Cutting.sliceOther_bind hmasked (ofPart ⟨0 + utf8Len (chars before), chars part⟩)
  rw [← Condition.maskedChars_append, Condition.utf8Len_maskedChars,
    Condition.utf8Len_maskedChars, Condition.chars_append] at hother
  rw [ofCut, Option.getD_some, Option.getD_some, Condition.chars_append]
  refine .mono ?_ (Nat.zero_add _).ge (Nat.zero_add _).le
  refine .slice_bind hwhole hchars ?_
  rw [hother]
  refine hpart.mono (Nat.le_refl _) ?_
  rw [Part.stop, String.utf8Len_append, Nat.add_assoc]

/-- The last clause is read from what is left. -/
theorem gives_ofCut_none (h : before ++ part = all) :
    Gives (chars all) (utf8Len (chars before)) (utf8Len (chars all))
      (ofCut (chars all) (maskedChars all) (utf8Len (chars before)) none) (ofMarks part) := by
  subst h
  have hgives := gives_ofCut_some (List.append_nil (before ++ part))
  rw [ofCut] at hgives ⊢
  rwa [Option.getD_none, Option.getD_none, Condition.utf8Len_maskedChars]

end Cut

end Clause

namespace Condition

variable {ms : List Mark} {c : Char}

/-- Reads the clauses behind an offset; the others are where the clauses end. -/
def clausesFrom (s shown : List Char) (c : Char) (start : Nat) : List Nat → Cutting (List Clause)
  | [] => do
    let clause ← Clause.ofCut s shown start none
    return [clause]
  | offset :: offsets => do
    let clause ← Clause.ofCut s shown start (some offset)
    let clauses ← clausesFrom s shown c (offset + utf8Len [c, c]) offsets
    return clause :: clauses

/-- Reads a condition with blanks around it. -/
def ofTextByOffsets (s : List Char) : Cutting Condition := do
  let s := Text.trim s
  if s.isEmpty then .ofExcept (.error .emptyExpression)
  else do
    let shown ← mask s
    Cutting.ofExcept (checkVisible shown)
    let connective := if occursTwice '|' shown then Connective.or else .and
    let clauses ← clausesFrom s shown connective.mark 0 (twiceOffsets connective.mark 0 shown)
    return ⟨String.ofList s, connective, clauses⟩

section Clauses

variable {all before first : List Mark}

theorem modifyHead_nil_append (parts : List (List Mark)) :
    parts.modifyHead ([] ++ ·) = parts :=
  congrFun List.modifyHead_id parts

theorem gives_clausesFrom_nil (h : before ++ first = all) (c : Char) :
    Gives (chars all) (utf8Len (chars before)) (utf8Len (chars all))
      (clausesFrom (chars all) (maskedChars all) c (utf8Len (chars before)) [])
      ([first].mapM Clause.ofMarks) := by
  have hle : utf8Len (chars before) ≤ utf8Len (chars all) := by simp [← h]
  rw [clausesFrom, List.mapM_cons, List.mapM_nil]
  exact (Clause.gives_ofCut_none h).bind hle (Nat.le_refl _) fun clause _ => .ofExcept _ _ _ (.ok _)

/-- The clauses are those between the places where the character stands twice. The first one starts
in front of the marks that are left. -/
theorem gives_clausesFrom (hc : c ≠ '_') (h : before ++ first ++ ms = all) :
    Gives (chars all) (utf8Len (chars before)) (utf8Len (chars all))
      (clausesFrom (chars all) (maskedChars all) c (utf8Len (chars before))
        (twiceOffsets c (utf8Len (chars (before ++ first))) (maskedChars ms)))
      (((splitAtTwice c ms).modifyHead (first ++ ·)).mapM Clause.ofMarks) := by
  fun_induction splitAtTwice c ms generalizing before first with
  | case1 =>
      rw [List.append_assoc] at h
      exact gives_clausesFrom_nil h c
  | case2 m =>
      have hone : m.visible = c → (visibleChars []).head? ≠ some c := by simp
      rw [List.append_assoc] at h
      rw [twiceOffsets_maskedChars_cons hc hone]
      exact gives_clausesFrom_nil h c
  | case3 m n ms htwice ih =>
      obtain ⟨hm, hn⟩ := htwice
      have hchars : chars [m, n] = [c, c] := by
        rw [chars_cons, chars_cons, (char_eq_of_visible_eq hc hm).2, (char_eq_of_visible_eq hc hn).2,
          chars_nil]
      have hoffset : utf8Len (chars (before ++ first ++ [m, n])) =
          utf8Len (chars (before ++ first)) + utf8Len [c, c] := by
        rw [chars_append, hchars, String.utf8Len_append]
      have hrest : before ++ first ++ [m, n] ++ [] ++ ms = all := by simp [← h]
      have hclauses := ih hrest
      have hstart : utf8Len (chars before) ≤ utf8Len (chars (before ++ first)) := by simp
      have hstop : utf8Len (chars (before ++ first)) ≤ utf8Len (chars all) := by simp [← h]
      rw [List.append_nil, hoffset, modifyHead_nil_append] at hclauses
      rw [twiceOffsets_maskedChars_cons_cons hc hm hn, clausesFrom, List.modifyHead_cons,
        List.append_nil, List.mapM_cons]
      refine (Clause.gives_ofCut_some h).bind hstart hstop fun clause _ => ?_
      exact (hclauses.mono (Nat.le_add_right _ _) (Nat.le_refl _)).bind hstop (Nat.le_refl _)
        fun clauses _ => .ofExcept _ _ _ (.ok _)
  | case4 m n ms _ hnil ih => exact absurd hnil (splits_splitAtTwice c (n :: ms)).ne_nil
  | case5 m n ms htwice part parts hcons ih =>
      have hrest : before ++ (first ++ [m]) ++ n :: ms = all := by simp [← h]
      have hclauses := ih hrest
      have hoffset : utf8Len (chars (before ++ (first ++ [m]))) =
          utf8Len (chars (before ++ first)) + m.char.utf8Size := by simp [Nat.add_assoc]
      rw [hcons, List.modifyHead_cons, List.append_assoc, List.singleton_append, hoffset] at hclauses
      have hone : m.visible = c → (visibleChars (n :: ms)).head? ≠ some c :=
        fun hm hn => htwice ⟨hm, Option.some.inj hn⟩
      rw [List.modifyHead_cons, twiceOffsets_maskedChars_cons hc hone]
      exact hclauses

/-- The clauses of a text are read from the start on. -/
theorem gives_clausesFrom_zero (hc : c ≠ '_') (ms : List Mark) :
    Gives (chars ms) 0 (utf8Len (chars ms))
      (clausesFrom (chars ms) (maskedChars ms) c 0 (twiceOffsets c 0 (maskedChars ms)))
      ((splitAtTwice c ms).mapM Clause.ofMarks) := by
  have hms : [] ++ [] ++ ms = ms := List.nil_append ms
  have hclauses := gives_clausesFrom hc hms
  rwa [modifyHead_nil_append] at hclauses

end Clauses

theorem gives_ofTextByOffsets (s : List Char) :
    Gives (Text.trim s) 0 (utf8Len (Text.trim s)) (ofTextByOffsets s) (ofText s) := by
  rw [ofTextByOffsets, ofText]
  by_cases hempty : (Text.trim s).isEmpty = true
  · rw [if_pos hempty, if_pos hempty]
    exact .ofExcept _ _ _ _
  · rw [if_neg hempty, if_neg hempty]
    cases hmarks : markLiterals (Text.trim s) with
    | error kind => exact (gives_mask_of_markLiterals_eq_error hmarks).bind_error _
    | ok ms =>
        have hshown := stretches_maskedChars ms
        rw [mask_of_markLiterals_eq_ok hmarks, Cutting.ofExcept_ok_bind, checkVisible_maskedChars,
          hshown.occursTwice_eq (by decide), Except.ok_bind]
        cases checkVisible (visibleChars ms) with
        | error kind => exact .ofExcept _ _ _ _
        | ok _ =>
            rw [← chars_of_markLiterals_eq_ok hmarks, Cutting.ofExcept_ok_bind, Except.ok_bind]
            generalize (if occursTwice '|' (visibleChars ms) then Connective.or else .and) =
              connective
            have hmark : connective.mark ≠ '_' := by cases connective <;> decide
            exact (gives_clausesFrom_zero hmark ms).bind (Nat.zero_le _) (Nat.le_refl _)
              fun clauses _ => .ofExcept _ _ _ (.ok _)

-- The content of the literal has a character of two bytes and a quote mark.
example : (ofTextByOffsets " a == 'é''b' && !c".toList).cuts =
    [⟨0, 13⟩, ⟨0, 2⟩, ⟨4, 13⟩, ⟨6, 11⟩, ⟨15, 18⟩] := by decide +kernel

/-- A mask has the length of its text and is the text byte for byte, but for the content of its
literals. Reading a condition by offsets makes only cuts that can be made in its expression, from one
boundary between characters to one that is not in front of it, and no cut goes back to what is in
front of an earlier one. So the reading gives a condition or a fault, which are those of the marked
text. -/
theorem cuts_between_characters (text : String) :
    (∀ shown, (mask text.toList).result = some (.ok shown) →
      ∃ ms, Marked ms ∧ chars ms = text.toList ∧
        (String.ofList shown).utf8ByteSize = text.utf8ByteSize ∧
        (String.ofList shown).toByteArray.data.toList =
          List.zipWith hide (contentBytes ms) text.toByteArray.data.toList) ∧
    let expression := String.ofList (Text.trim text.toList)
    let reading := ofTextByOffsets text.toList
    (∀ cut ∈ reading.cuts, cut.start ≤ cut.stop ∧ cut.stop ≤ expression.utf8ByteSize ∧
      (⟨cut.start⟩ : String.Pos.Raw).IsValid expression ∧
      (⟨cut.stop⟩ : String.Pos.Raw).IsValid expression) ∧
    reading.cuts.Pairwise Text.Cut.Precedes ∧
    reading.result = some (ofText text.toList) := by
  have hgives := gives_ofTextByOffsets text.toList
  refine ⟨fun shown hshown => ?_, fun cut hcut => ?_, hgives.ordered, hgives.result⟩
  · obtain ⟨ms, hms, hchars, rfl⟩ := exists_marked_of_result_mask hshown
    refine ⟨ms, hms, hchars, ?_, ?_⟩
    · rw [String.utf8ByteSize_ofList, utf8Len_maskedChars, hchars, String.utf8Len_toList]
    · rw [← Text.bytes_eq_toByteArray, bytes_maskedChars, hchars, Text.bytes_eq_toByteArray,
        String.ofList_toList]
  · have hvalid := hgives.valid cut hcut
    refine ⟨hvalid.le, ?_, Text.isBoundary_iff_isValid.1 hvalid.start,
      Text.isBoundary_iff_isValid.1 hvalid.stop⟩
    rw [String.utf8ByteSize_ofList]
    exact hvalid.stop.le

end Condition

end SqlTemplate
