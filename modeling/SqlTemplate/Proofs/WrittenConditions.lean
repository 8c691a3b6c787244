import Mathlib
import SqlTemplate.Proofs.WrittenTerms

/-!
# Written conditions

How a condition is written: its terms, operators and connectives with one blank between them, and a
negated clause with an exclamation mark before its term. Whatever the literals hold, a written
condition is cut where it was put together: at its connectives into the clauses
(`Condition.JoinedMarks`) and a clause at its operator into the terms (`Condition.ClauseMarks`). So
it is read as what it was written for (`Condition.ofText_joined`).
-/

namespace SqlTemplate

open Condition (Mark Marked Quiet Passes chars visibleChars plainMarks)
open Text (quoteMark trim)

theorem Operator.ofStart?_exclamation {s : List Char} (h : s.head? ≠ some '=') :
    ofStart? ('!' :: s) = none := by
  cases s with
  | nil => rfl
  | cons c s =>
      have hc : c ≠ '=' := fun hc => h (congrArg some hc)
      simp [ofStart?, hc]

/-- The clause is written so in a condition. -/
inductive ClauseKind.IsWritten : ClauseKind → List Char → Prop where
  | comparison {left right : Term} {s t : List Char} (operator : Operator)
      (hleft : left.IsWritten s) (hright : right.IsWritten t) :
      IsWritten (.comparison left operator right)
        (s ++ ' ' :: (operator.symbol.toList ++ ' ' :: t))
  | standalone {term : Term} {s : List Char} (negated : Bool) (h : term.IsWritten s) :
      IsWritten (.standalone negated term) ((if negated then ['!'] else []) ++ s)

namespace Condition

/-- The mark of a blank outside of literals. -/
def blankMark : Mark :=
  ⟨' ', false⟩

theorem blank_blankMark : Blank [blankMark] :=
  List.forall_mem_singleton.2 ⟨rfl, rfl⟩

variable {ms before after : List Mark}

/-- The marks are those of a clause, which is read from them. -/
structure ClauseMarks (ms : List Mark) (k : ClauseKind) : Prop where
  marked : Marked ms
  passes : Passes (visibleChars ms)
  apart : ∀ connective : Connective, ∀ m ∈ ms, m.visible ≠ connective.mark
  trimmed : Text.IsTrimmed (chars ms)
  kindOfMarks : Clause.kindOfMarks ms = .ok k

theorem Quiet.not_mem_starts (h : Quiet ms) : ∀ m ∈ ms, m.visible ∉ Operator.starts :=
  fun m hm hmem => h.visible m hm
    (List.mem_cons_of_mem _ (List.mem_cons_of_mem _ (List.mem_cons_of_mem _ hmem)))

theorem Quiet.visible_ne_mark (h : Quiet ms) (connective : Connective) :
    ∀ m ∈ ms, m.visible ≠ connective.mark := by
  intro m hm heq
  refine h.visible m hm ?_
  rw [heq]
  cases connective <;> decide

theorem Quiet.cutAtOperator?_eq_none (h : Quiet ms) : Clause.cutAtOperator? ms = none :=
  Clause.cutAtOperator?_of_forall h.not_mem_starts

theorem ofText_chars {t : Term} (hbefore : Blank before) (hafter : Blank after)
    (h : t.IsWritten (chars ms)) : Term.ofText (chars (before ++ ms ++ after)) = .ok t := by
  rw [← Term.ofText_trim, trim_chars_append hbefore hafter, h.isTrimmed.trim_eq]
  exact Term.ofText_of_isWritten h

theorem cutAtOperator?_symbol (operator : Operator) (ms : List Mark) :
    Clause.cutAtOperator? (plainMarks operator.symbol.toList ++ blankMark :: ms) =
      some ([], operator, blankMark :: ms) := by
  cases operator <;> rfl

/-- A comparison is cut at its operator. -/
theorem clauseMarks_comparison {left right : List Mark} {a b : Term} (operator : Operator)
    (hleft : Quiet left) (hright : Quiet right) (ha : a.IsWritten (chars left))
    (hb : b.IsWritten (chars right)) :
    ClauseMarks (left ++ blankMark :: (plainMarks operator.symbol.toList ++ blankMark :: right))
      (.comparison a operator b) where
  marked := by
    have hsymbol : Marked (plainMarks operator.symbol.toList) :=
      marked_plainMarks (by cases operator <;> decide)
    have hbehind : Marked (blankMark :: right) := .plain (by decide) hright.marked
    refine hleft.marked.append (.plain (by decide) (hsymbol.append hbehind ?_)) ?_
    · exact fun h => nomatch h
    · exact fun h => nomatch h
  passes := by
    have hpasses := hleft.passes.append ((passes_symbol operator).append hright.passes)
    simpa [blankMark, Mark.visible] using hpasses
  apart connective := by
    have hblank : blankMark.visible ≠ connective.mark := by cases connective <;> decide
    have hsymbol : ∀ m ∈ plainMarks operator.symbol.toList, m.visible ≠ connective.mark := by
      cases operator <;> cases connective <;> decide
    simp only [List.forall_mem_append, List.forall_mem_cons]
    exact ⟨hleft.visible_ne_mark connective, hblank, hsymbol, hblank,
      hright.visible_ne_mark connective⟩
  trimmed := by
    have htrimmed := ha.isTrimmed.append hb.isTrimmed (' ' :: (operator.symbol.toList ++ [' ']))
    simpa [blankMark] using htrimmed
  kindOfMarks := by
    have hmarks : left ++ blankMark :: (plainMarks operator.symbol.toList ++ blankMark :: right) =
        left ++ [blankMark] ++ (plainMarks operator.symbol.toList ++ blankMark :: right) := by simp
    have hbehind : ∀ m ∈ left ++ [blankMark], m.visible ∉ Operator.starts := by
      rw [List.forall_mem_append]
      exact ⟨hleft.not_mem_starts, blank_blankMark.not_mem_starts⟩
    have ha' : Term.ofText (chars ([] ++ left ++ [blankMark])) = .ok a :=
      ofText_chars blank_nil blank_blankMark ha
    have hb' : Term.ofText (chars ([blankMark] ++ right ++ [])) = .ok b :=
      ofText_chars blank_blankMark blank_nil hb
    rw [List.append_nil] at hb'
    rw [Clause.kindOfMarks, hmarks, Clause.cutAtOperator?_append_of_forall hbehind,
      cutAtOperator?_symbol, Option.map_some]
    dsimp only
    rw [List.append_nil]
    exact Except.bind_eq_ok_iff.2 ⟨a, ha', Except.bind_eq_ok_iff.2 ⟨b, hb', rfl⟩⟩

/-- A clause of one term is not cut. -/
theorem clauseMarks_standalone {t : Term} (hms : Quiet ms) (h : t.IsWritten (chars ms)) :
    ClauseMarks ms (.standalone false t) where
  marked := hms.marked
  passes := hms.passes
  apart := hms.visible_ne_mark
  trimmed := h.isTrimmed
  kindOfMarks := by
    rw [Clause.kindOfMarks, hms.cutAtOperator?_eq_none]
    dsimp only
    rw [h.isTrimmed.trim_eq, Clause.standaloneOfText]
    · rw [Term.ofText_of_isWritten h]
      rfl
    · rintro s hs
      refine hms.head?_ne ?_
      rw [hs]
      rfl

theorem isTrimmed_exclamation {s : List Char} (h : Text.IsTrimmed s) :
    Text.IsTrimmed ('!' :: s) := by
  have hmark : Text.IsTrimmed ['!'] :=
    Text.isTrimmed_of_forall (by simp) (List.forall_mem_singleton.2 (by decide))
  exact hmark.append h []

/-- A negated clause is not cut either, as no equals sign stands behind the exclamation mark. -/
theorem clauseMarks_negated {t : Term} (hms : Quiet ms) (h : t.IsWritten (chars ms)) :
    ClauseMarks (⟨'!', false⟩ :: ms) (.standalone true t) where
  marked := .plain (by decide) hms.marked
  passes := by
    have hvisible : ∀ c ∈ specials, c ≠ '!' → c ∉ '!' :: visibleChars ms := by
      intro c hc hne
      exact List.not_mem_cons_of_ne_of_not_mem hne (hms.not_mem_visibleChars hc)
    have hmark : Calls ['!'] := calls_of_not_mem (by decide) (by decide)
    exact passes_of_not_mem (hvisible _ (by decide) (by decide))
      (hvisible _ (by decide) (by decide)) (hvisible _ (by decide) (by decide))
      (hmark.append hms.calls)
  apart connective := by
    refine List.forall_mem_cons.2 ⟨?_, hms.visible_ne_mark connective⟩
    cases connective <;> decide
  trimmed := isTrimmed_exclamation h.isTrimmed
  kindOfMarks := by
    have hhead : (visibleChars ms).head? ≠ some '=' := by
      intro heq
      exact hms.not_mem_visibleChars (by decide) (List.mem_of_head? heq)
    have hcut : Clause.cutAtOperator? (⟨'!', false⟩ :: ms) = none := by
      rw [Clause.cutAtOperator?, hms.cutAtOperator?_eq_none, visibleChars_cons, Mark.visible,
        if_neg Bool.false_ne_true, Operator.ofStart?_exclamation hhead]
      rfl
    have htrim : trim (chars (⟨'!', false⟩ :: ms)) = '!' :: chars ms :=
      (isTrimmed_exclamation h.isTrimmed).trim_eq
    rw [Clause.kindOfMarks, hcut]
    dsimp only
    rw [htrim, Clause.standaloneOfText, Term.ofText_of_isWritten h]
    rfl

/-- A written clause is made of such marks. -/
theorem exists_clauseMarks {k : ClauseKind} {s : List Char} (h : k.IsWritten s) :
    ∃ ms, chars ms = s ∧ ClauseMarks ms k := by
  cases h with
  | comparison operator hleft hright =>
      obtain ⟨left, rfl, hleftQuiet⟩ := hleft.exists_quiet
      obtain ⟨right, rfl, hrightQuiet⟩ := hright.exists_quiet
      exact ⟨_, by simp [blankMark],
        clauseMarks_comparison operator hleftQuiet hrightQuiet hleft hright⟩
  | standalone negated h =>
      obtain ⟨ms, rfl, hquiet⟩ := h.exists_quiet
      cases negated with
      | false => exact ⟨ms, rfl, clauseMarks_standalone hquiet h⟩
      | true => exact ⟨_, rfl, clauseMarks_negated hquiet h⟩

/-- Clauses joined by the connective, with one blank on both sides of it. -/
def joined (connective : Connective) (clauses : List (List Char)) : List Char :=
  [' ', connective.mark, connective.mark, ' '].intercalate clauses

/-- The marks are those of clauses that are joined by the connective; the clauses are read from
them with blanks in front. -/
structure JoinedMarks (connective : Connective) (clauses : List Clause) (ms : List Mark) :
    Prop where
  chars_eq : chars ms = joined connective (clauses.map fun c => c.source.toList)
  marked : Marked ms
  passes : Passes (visibleChars ms)
  apart : ∀ other : Connective, other ≠ connective → ∀ m ∈ ms, m.visible ≠ other.mark
  trimmed : Text.IsTrimmed (chars ms)
  twice : occursTwice connective.mark (visibleChars ms) = decide (2 ≤ clauses.length)
  clauses_eq : ∀ before, Blank before →
    (splitAtTwice connective.mark (before ++ ms)).mapM Clause.ofMarks = .ok clauses

variable {connective : Connective} {c : Clause} {clauses : List Clause}

theorem ofMarks_eq_ok (hms : ClauseMarks ms c.kind) (hsource : chars ms = c.source.toList)
    (hbefore : Blank before) (hafter : Blank after) :
    Clause.ofMarks (before ++ ms ++ after) = .ok c := by
  rw [Clause.ofMarks_append_blank hbefore hafter]
  refine Clause.ofMarks_eq_ok_iff.2 ⟨?_, hms.kindOfMarks⟩
  rw [hms.trimmed.trim_eq, hsource, String.ofList_toList]

theorem joinedMarks_singleton (connective : Connective) (hms : ClauseMarks ms c.kind)
    (hsource : chars ms = c.source.toList) : JoinedMarks connective [c] ms where
  chars_eq := by rw [hsource]; exact (List.intercalate_singleton).symm
  marked := hms.marked
  passes := hms.passes
  apart other _ := hms.apart other
  trimmed := hms.trimmed
  twice := by
    refine occursTwice_of_not_mem fun hmem => ?_
    obtain ⟨m, hm, heq⟩ := List.mem_map.1 hmem
    exact hms.apart connective m hm heq
  clauses_eq before hbefore := by
    have hmark : Text.isBlank connective.mark = false := by cases connective <;> decide
    have hsplit : splitAtTwice connective.mark (before ++ ms) = [before ++ ms ++ []] := by
      rw [List.append_nil]
      refine splitAtTwice_of_forall_ne ?_
      rw [List.forall_mem_append]
      exact ⟨hbefore.visible_ne hmark, hms.apart connective⟩
    rw [hsplit, List.mapM_cons, ofMarks_eq_ok hms hsource hbefore blank_nil]
    rfl

/-- One more clause in front. -/
theorem JoinedMarks.cons {rest : List Mark} (hne : clauses ≠ []) (hms : ClauseMarks ms c.kind)
    (hsource : chars ms = c.source.toList) (hrest : JoinedMarks connective clauses rest) :
    JoinedMarks connective (c :: clauses)
      (ms ++ plainMarks [' ', connective.mark, connective.mark, ' '] ++ rest) where
  chars_eq := by
    obtain ⟨d, clauses, rfl⟩ := List.exists_cons_of_ne_nil hne
    rw [chars_append, chars_append, chars_plainMarks, hsource, hrest.chars_eq]
    exact List.intercalate_cons_cons.symm
  marked := by
    have hmark : connective.mark ≠ quoteMark := by cases connective <;> decide
    have hbehind : Marked (plainMarks [' ', connective.mark, connective.mark, ' '] ++ rest) :=
      .plain (by decide) (.plain hmark (.plain hmark (.plain (by decide) hrest.marked)))
    rw [List.append_assoc]
    exact hms.marked.append hbehind fun h => nomatch h
  passes := by
    have hmarks : Passes [connective.mark, connective.mark] := by
      cases connective <;> exact passes_of_not_mem (by decide) (by decide) (by decide)
        (calls_of_not_mem (by decide) (by decide))
    simpa using hms.passes.append (hmarks.append hrest.passes)
  apart other hother := by
    have hmark : ∀ m ∈ plainMarks [' ', connective.mark, connective.mark, ' '],
        m.visible ≠ other.mark := by
      cases connective <;> cases other <;> first | exact absurd rfl hother | decide
    rw [List.forall_mem_append, List.forall_mem_append]
    exact ⟨⟨hms.apart other, hmark⟩, hrest.apart other hother⟩
  trimmed := by
    rw [chars_append, chars_append]
    exact hms.trimmed.append hrest.trimmed _
  twice := by
    have htwo : 2 ≤ (c :: clauses).length := by
      have hlength := List.length_pos_iff.2 hne
      rw [List.length_cons]
      omega
    have htwice := occursTwice_append_cons_cons connective.mark (visibleChars ms ++ [' '])
      (' ' :: visibleChars rest)
    rw [decide_eq_true htwo, ← htwice]
    simp
  clauses_eq before hbefore := by
    have hmark : Text.isBlank connective.mark = false := by cases connective <;> decide
    have hsplit : splitAtTwice connective.mark
        (before ++ (ms ++ plainMarks [' ', connective.mark, connective.mark, ' '] ++ rest)) =
        (before ++ ms ++ [blankMark]) :: splitAtTwice connective.mark ([blankMark] ++ rest) := by
      have hfirst : ∀ m ∈ before ++ ms ++ [blankMark], m.visible ≠ connective.mark := by
        rw [List.forall_mem_append, List.forall_mem_append]
        exact ⟨⟨hbefore.visible_ne hmark, hms.apart connective⟩,
          blank_blankMark.visible_ne hmark⟩
      have hcut := splitAtTwice_append_cons_cons (m := ⟨connective.mark, false⟩)
        (n := ⟨connective.mark, false⟩) hfirst rfl rfl ([blankMark] ++ rest)
      rw [← hcut]
      simp [blankMark, plainMarks]
    rw [hsplit, List.mapM_cons, ofMarks_eq_ok hms hsource hbefore blank_blankMark,
      hrest.clauses_eq _ blank_blankMark]
    rfl

/-- Written clauses that are joined are made of such marks. -/
theorem exists_joinedMarks (connective : Connective) (hne : clauses ≠ [])
    (h : ∀ c ∈ clauses, c.kind.IsWritten c.source.toList) :
    ∃ ms, JoinedMarks connective clauses ms := by
  induction clauses with
  | nil => exact absurd rfl hne
  | cons c clauses ih =>
      rw [List.forall_mem_cons] at h
      obtain ⟨ms, hsource, hms⟩ := exists_clauseMarks h.1
      rcases eq_or_ne clauses [] with rfl | hclauses
      · exact ⟨ms, joinedMarks_singleton connective hms hsource⟩
      · obtain ⟨rest, hrest⟩ := ih hclauses h.2
        exact ⟨_, hrest.cons hclauses hms hsource⟩

theorem JoinedMarks.occursTwice_other (h : JoinedMarks connective clauses ms) {other : Connective}
    (hother : other ≠ connective) : occursTwice other.mark (visibleChars ms) = false := by
  refine occursTwice_of_not_mem fun hmem => ?_
  obtain ⟨m, hm, heq⟩ := List.mem_map.1 hmem
  exact h.apart other hother m hm heq

/-- The marks are joined by what they were joined with. -/
theorem JoinedMarks.joint_eq (h : JoinedMarks connective clauses ms)
    (hor : connective = .or → 2 ≤ clauses.length) : joint ms = connective := by
  rw [joint]
  cases connective with
  | and =>
      have hother : occursTwice '|' (visibleChars ms) = false :=
        h.occursTwice_other (by decide : Connective.or ≠ .and)
      rw [hother]
      rfl
  | or =>
      have htwice : occursTwice '|' (visibleChars ms) = true :=
        h.twice.trans (decide_eq_true (hor rfl))
      rw [htwice]
      rfl

theorem JoinedMarks.checkVisible (h : JoinedMarks connective clauses ms) :
    checkVisible (visibleChars ms) = .ok () := by
  refine h.passes.checkVisible ?_
  cases connective with
  | and =>
      have hother : occursTwice '|' (visibleChars ms) = false :=
        h.occursTwice_other (by decide : Connective.or ≠ .and)
      rw [hother, Bool.and_false]
  | or =>
      have hother : occursTwice '&' (visibleChars ms) = false :=
        h.occursTwice_other (by decide : Connective.and ≠ .or)
      rw [hother, Bool.false_and]

/-- A written condition is read as what it was written for: its clauses, each with its text, and
the connective that joins them. -/
theorem ofText_joined {connective : Connective} {clauses : List Clause} (hne : clauses ≠ [])
    (hor : connective = .or → 2 ≤ clauses.length)
    (h : ∀ c ∈ clauses, c.kind.IsWritten c.source.toList) :
    ofText (joined connective (clauses.map fun c => c.source.toList)) =
      .ok ⟨String.ofList (joined connective (clauses.map fun c => c.source.toList)), connective,
        clauses⟩ := by
  obtain ⟨ms, hms⟩ := exists_joinedMarks connective hne h
  have htrim : trim (chars ms) = chars ms := hms.trimmed.trim_eq
  rw [← hms.chars_eq]
  refine ofText_eq_ok_iff.2 ⟨?_, ms, ?_, hms.checkVisible, clauses, ?_, ?_⟩
  · rw [htrim]
    exact hms.trimmed.ne_nil
  · rw [htrim]
    exact hms.marked.markLiterals_chars
  · rw [hms.joint_eq hor]
    exact hms.clauses_eq [] blank_nil
  · rw [htrim, hms.joint_eq hor]

/-- A connective, operators and a quotation mark in a literal, a number with a sign, calls in a
path, and a negation. -/
theorem ofText_joined_three :
    ofText "name == 'it''s && \"<>\"' || -1.50 <= items.get(0).size() || !done".toList =
      .ok ⟨"name == 'it''s && \"<>\"' || -1.50 <= items.get(0).size() || !done", .or,
        [⟨"name == 'it''s && \"<>\"'",
            .comparison (.path ⟨.argument "name", []⟩) .eq (.string "it's && \"<>\"")⟩,
          ⟨"-1.50 <= items.get(0).size()",
            .comparison (.number ⟨true, 150, 2, by decide, by decide⟩) .le
              (.path ⟨.argument "items", [.index "0", .method "size"]⟩)⟩,
          ⟨"!done", .standalone true (.path ⟨.argument "done", []⟩)⟩]⟩ := by
  have hpath : ∀ (name : String) (segments : List Segment), Text.isIdentifier name.toList = true →
      (∀ s ∈ segments, s.IsPlain) → Path.IsPlain ⟨.argument name, segments⟩ := by
    refine fun name segments hname hsegments => ⟨?_, hsegments⟩
    rintro _ ⟨⟩
    exact hname
  have hname : ClauseKind.IsWritten (.comparison (.path ⟨.argument "name", []⟩) .eq
      (.string "it's && \"<>\"")) "name == 'it''s && \"<>\"'".toList :=
    .comparison .eq (.path (hpath _ _ (by decide) (by decide)) (by decide)) (.string _)
  have hsize : ClauseKind.IsWritten (.comparison (.number ⟨true, 150, 2, by decide, by decide⟩) .le
      (.path ⟨.argument "items", [.index "0", .method "size"]⟩))
      "-1.50 <= items.get(0).size()".toList := by
    have hnumeral : Number.Numeral.Denotes
        ⟨true, ['1'], ['5', '0'], by decide, List.all_eq_true.1 rfl, List.all_eq_true.1 rfl⟩
        ⟨true, 150, 2, by decide, by decide⟩ := ⟨rfl, rfl, rfl⟩
    exact .comparison .le (.number hnumeral)
      (.path (hpath _ _ (by decide) (by decide)) (by decide))
  have hdone : ClauseKind.IsWritten (.standalone true (.path ⟨.argument "done", []⟩))
      "!done".toList :=
    .standalone true (.path (hpath _ _ (by decide) (by decide)) (by decide))
  have hwritten : ∀ c ∈ ([⟨_, _⟩, ⟨_, _⟩, ⟨_, _⟩] : List Clause),
      c.kind.IsWritten c.source.toList :=
    List.forall_mem_cons.2 ⟨hname,
      List.forall_mem_cons.2 ⟨hsize, List.forall_mem_singleton.2 hdone⟩⟩
  exact ofText_joined (List.cons_ne_nil _ _) (fun _ : Connective.or = .or => by decide) hwritten

end Condition

end SqlTemplate
