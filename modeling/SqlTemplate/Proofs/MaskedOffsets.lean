import Mathlib
import SqlTemplate.Proofs.Cutting
import SqlTemplate.Proofs.Masks

/-!
# Offsets in masks

A mask is written from left to right, and the offset of the literal that is open is kept
(`Condition.maskFrom`). What is written is the mask of the marked text
(`Condition.mask_of_markLiterals_eq_ok`). If a literal is not closed, the fault names the text from
its offset on (`Condition.gives_mask_of_markLiterals_eq_error`).

The offsets that a text is cut at are looked for in its mask: that of the first operator
(`Clause.findOperator?_maskedChars`), and those at which a character stands twice
(`Condition.twiceOffsets`).
-/

namespace SqlTemplate

open String (utf8Len)

namespace Condition

open Text (quoteMark)

variable {ms : List Mark} {m : Mark} {c : Char} {s : List Char}

section Writing

/-- Writes a part of a mask in front of the rest. -/
def write (part : List Char) (rest : List Char × Option Nat) : List Char × Option Nat :=
  (part ++ rest.1, rest.2)

/-- The mask of the rest of a text, and the offset of the literal that is open behind it. -/
def maskFrom (opened : Option Nat) (offset : Nat) : List Char → List Char × Option Nat
  | [] => ([], opened)
  | c :: s =>
    match opened with
    | none =>
      write [c] (maskFrom (if c = quoteMark then some offset else none) (offset + c.utf8Size) s)
    | some start =>
      if c = quoteMark then
        match s with
        | [] => ([c], none)
        | d :: s =>
          if d = quoteMark then
            write ['_', '_'] (maskFrom (some start) (offset + c.utf8Size + d.utf8Size) s)
          else write [c] (maskFrom none (offset + c.utf8Size) (d :: s))
      else
        write (List.replicate c.utf8Size '_') (maskFrom (some start) (offset + c.utf8Size) s)

/-- Writes the mask of a text, which has no literal that is not closed. -/
def mask (s : List Char) : Cutting (List Char) :=
  match maskFrom none 0 s with
  | (shown, none) => return shown
  | (_, some start) => do
    let literal ← Cutting.slice ⟨0, s⟩ start (utf8Len s)
    Cutting.ofExcept (.error (.unterminatedLiteral (String.ofList literal.text)))

/-- The rest of a text starts at the offset. -/
def StartsAt (s : List Char) (offset : Nat) (rest : List Char) : Prop :=
  ∃ before, before ++ rest = s ∧ utf8Len before = offset

theorem startsAt_zero (s : List Char) : StartsAt s 0 s :=
  ⟨[], rfl, rfl⟩

theorem StartsAt.cons {offset : Nat} {rest : List Char} (h : StartsAt s offset (c :: rest)) :
    StartsAt s (offset + c.utf8Size) rest := by
  obtain ⟨before, hs, rfl⟩ := h
  exact ⟨before ++ [c], by simpa using hs, by simp⟩

/-- What is written of a text, from what is marked of it: its mask, or the offset of the literal
that is open. -/
inductive Writes (s : List Char) :
    List Char × Option Nat → Except ErrorKind (List Mark) → Prop where
  | closed (ms : List Mark) : Writes s (maskedChars ms, none) (.ok ms)
  | opened {start : Nat} {literal : List Char} (h : StartsAt s start literal)
      (shown : List Char) :
      Writes s (shown, some start) (.error (.unterminatedLiteral (String.ofList literal)))

theorem Writes.append {written : List Char × Option Nat} {r : Except ErrorKind (List Mark)}
    (h : Writes s written r) (ns : List Mark) :
    Writes s (write (maskedChars ns) written) (r.map (ns ++ ·)) := by
  cases h with
  | closed ms =>
      rw [write, ← maskedChars_append]
      exact .closed (ns ++ ms)
  | opened h shown => exact .opened h _

theorem writes_maskFrom {opened : Option Nat} {literal : Option (List Char)} {offset : Nat}
    {rest : List Char} (hopened : Option.Rel (StartsAt s) opened literal)
    (hrest : StartsAt s offset rest) :
    Writes s (maskFrom opened offset rest) (markFrom literal rest) := by
  fun_induction maskFrom opened offset rest generalizing literal with
  | case1 opened offset =>
      cases hopened with
      | none => exact .closed []
      | some hstart => exact .opened hstart []
  | case2 offset c rest ih =>
      cases hopened
      by_cases hc : c = quoteMark
      · subst hc
        have hwrites := ih (.some hrest) hrest.cons
        rw [markFrom_none_cons_quoteMark]
        exact hwrites.append [⟨quoteMark, false⟩]
      · have hwrites := ih (by simpa [hc] using .none) hrest.cons
        rw [markFrom_cons_of_ne hc]
        exact hwrites.append [⟨c, false⟩]
  | case3 =>
      cases hopened
      exact .closed [⟨quoteMark, false⟩]
  | case4 offset start rest ih =>
      cases hopened with
      | @some _ l hstart =>
          rw [markFrom_some_cons_cons_quoteMark]
          exact (ih (.some hstart) hrest.cons.cons).append [⟨quoteMark, true⟩, ⟨quoteMark, true⟩]
  | case5 offset start d rest hd ih =>
      have hhead : (d :: rest).head? ≠ some quoteMark := fun h => hd (Option.some.inj h)
      cases hopened with
      | @some _ l hstart =>
          rw [markFrom_some_cons_quoteMark hhead]
          exact (ih .none hrest.cons).append [⟨quoteMark, false⟩]
  | case6 offset c rest start hc ih =>
      cases hopened with
      | @some _ l hstart =>
          rw [markFrom_cons_of_ne hc]
          have hmasked : maskedChars [⟨c, true⟩] = List.replicate c.utf8Size '_' :=
            List.append_nil _
          rw [← hmasked]
          exact (ih (.some hstart) hrest.cons).append [⟨c, true⟩]

theorem mask_of_markLiterals_eq_ok (h : markLiterals s = .ok ms) :
    mask s = .ofExcept (.ok (maskedChars ms)) := by
  have hwrites := writes_maskFrom .none (startsAt_zero s)
  rw [← markLiterals, h] at hwrites
  rw [mask]
  generalize maskFrom none 0 s = written at hwrites
  cases hwrites
  rfl

example : (mask "a == 'é''b'".toList).result = some (.ok "a == '_____'".toList) := by cbv

theorem gives_mask_of_markLiterals_eq_error {kind : ErrorKind} (h : markLiterals s = .error kind) :
    Cutting.Gives s 0 (utf8Len s) (mask s) (.error kind) := by
  have hwrites := writes_maskFrom .none (startsAt_zero s)
  rw [← markLiterals, h] at hwrites
  rw [mask]
  generalize maskFrom none 0 s = written at hwrites
  cases hwrites with
  | opened hstart shown =>
      obtain ⟨before, rfl, rfl⟩ := hstart
      refine .mono ?_ (Nat.zero_le (0 + utf8Len before)) (Nat.zero_add _).le
      exact .slice_bind (Text.Part.standsIn_whole _) (List.append_nil _) (.ofExcept _ _ _ _)

/-- What is written of a text is the mask of its marks. -/
theorem exists_marked_of_result_mask {shown : List Char}
    (h : (mask s).result = some (.ok shown)) :
    ∃ ms, Marked ms ∧ chars ms = s ∧ shown = maskedChars ms := by
  cases hmarks : markLiterals s with
  | error kind =>
      rw [(gives_mask_of_markLiterals_eq_error hmarks).result] at h
      cases h
  | ok ms =>
      rw [mask_of_markLiterals_eq_ok hmarks] at h
      cases h
      obtain ⟨hms, hchars⟩ := markLiterals_eq_ok_iff.1 hmarks
      exact ⟨ms, hms, hchars, rfl⟩

end Writing

section Twice

/-- The offsets at which the character stands twice, one place behind the other. The text starts at
the given offset. -/
def twiceOffsets (c : Char) (start : Nat) : List Char → List Nat
  | [] => []
  | [_] => []
  | a :: b :: s =>
    if a = c ∧ b = c then start :: twiceOffsets c (start + a.utf8Size + b.utf8Size) s
    else twiceOffsets c (start + a.utf8Size) (b :: s)

theorem twiceOffsets_cons {a : Char} (h : a = c → s.head? ≠ some c) (start : Nat) :
    twiceOffsets c start (a :: s) = twiceOffsets c (start + a.utf8Size) s := by
  cases s with
  | nil => rfl
  | cons b s =>
      have htwice : ¬ (a = c ∧ b = c) := fun ⟨ha, hb⟩ => h ha (congrArg some hb)
      rw [twiceOffsets, if_neg htwice]

theorem twiceOffsets_replicate_append (hc : c ≠ '_') (start n : Nat) (s : List Char) :
    twiceOffsets c start (List.replicate n '_' ++ s) = twiceOffsets c (start + n) s := by
  induction n generalizing start with
  | zero => rfl
  | succ n ih =>
      rw [List.replicate_succ, List.cons_append, twiceOffsets_cons fun h => absurd h.symm hc, ih,
        Nat.add_right_comm, Nat.add_assoc]
      rfl

/-- Where the character does not stand twice, it does not stand twice in the mask. -/
theorem twiceOffsets_maskedChars_cons (hc : c ≠ '_')
    (h : m.visible = c → (visibleChars ms).head? ≠ some c) (start : Nat) :
    twiceOffsets c start (maskedChars (m :: ms)) =
      twiceOffsets c (start + m.char.utf8Size) (maskedChars ms) := by
  rw [maskedChars_cons, Mark.masked]
  split
  next => exact twiceOffsets_replicate_append hc start _ _
  next hcontent =>
    rw [Mark.visible, if_neg hcontent, ← (stretches_maskedChars ms).head?_eq] at h
    exact twiceOffsets_cons h start

/-- An offset is where the character stands twice. -/
theorem twiceOffsets_maskedChars_cons_cons {n : Mark} (hc : c ≠ '_') (hm : m.visible = c)
    (hn : n.visible = c) (start : Nat) (ms : List Mark) :
    twiceOffsets c start (maskedChars (m :: n :: ms)) =
      start :: twiceOffsets c (start + utf8Len [c, c]) (maskedChars ms) := by
  obtain ⟨hmcontent, hmchar⟩ := char_eq_of_visible_eq hc hm
  obtain ⟨hncontent, hnchar⟩ := char_eq_of_visible_eq hc hn
  simp [Mark.masked, hmcontent, hncontent, hmchar, hnchar, twiceOffsets, Nat.add_assoc]

end Twice

end Condition

namespace Operator

/-- Which operator a text starts with depends on its first two characters. -/
theorem map_fst_ofStart?_cons {s t : List Char} (h : s.head? = t.head?) (c : Char) :
    (ofStart? (c :: s)).map Prod.fst = (ofStart? (c :: t)).map Prod.fst := by
  by_cases hc : c ∈ starts
  · cases s with
    | nil =>
        rw [List.head?_nil, eq_comm, List.head?_eq_none_iff] at h
        rw [h]
    | cons d s =>
        rw [List.head?_cons, eq_comm, List.head?_eq_some_iff] at h
        obtain ⟨t, rfl⟩ := h
        rw [starts] at hc
        by_cases hd : d = '='
        · subst hd
          fin_cases hc <;> rfl
        · fin_cases hc <;> simp [ofStart?, hd]
  · rw [ofStart?_cons_of_not_mem hc, ofStart?_cons_of_not_mem hc]

end Operator

namespace Clause

open Condition (Mark chars maskedChars visibleChars)

/-- The operator at an offset. There is none at an offset inside of a character. -/
def operatorAt? (shown : List Char) (offset : Nat) : Option (Nat × Operator) :=
  (Text.splitAtByte? offset shown).bind fun (_, rest) =>
    (Operator.ofStart? rest).map fun (operator, _) => (offset, operator)

/-- The first operator of a mask and its offset. -/
def findOperator? (shown : List Char) : Option (Nat × Operator) :=
  (List.range (utf8Len shown)).findSome? (operatorAt? shown)

/-- The first operator is at the start, or it is looked for behind the first character. -/
theorem findOperator?_cons (c : Char) (s : List Char) :
    findOperator? (c :: s) = ((Operator.ofStart? (c :: s)).map fun (operator, _) => (0, operator)).or
      ((findOperator? s).map fun (offset, operator) => (c.utf8Size + offset, operator)) := by
  have hstart : (List.range c.utf8Size).findSome? (operatorAt? (c :: s)) =
      (Operator.ofStart? (c :: s)).map fun (operator, _) => (0, operator) := by
    obtain ⟨n, hn⟩ := Nat.exists_eq_succ_of_ne_zero c.utf8Size_pos.ne'
    have hinside : ((List.range n).map Nat.succ).findSome? (operatorAt? (c :: s)) = none := by
      rw [List.findSome?_eq_none_iff, List.forall_mem_map]
      intro offset hoffset
      rw [List.mem_range] at hoffset
      rw [operatorAt?, Text.splitAtByte?, if_neg (Nat.succ_ne_zero offset), if_neg (by omega)]
      rfl
    have hzero : operatorAt? (c :: s) 0 =
        (Operator.ofStart? (c :: s)).map fun (operator, _) => (0, operator) := by
      rw [operatorAt?, Text.splitAtByte?, if_pos rfl]
      rfl
    rw [hn, List.range_succ_eq_map, List.findSome?_cons, hinside, hzero]
    cases (Operator.ofStart? (c :: s)) <;> rfl
  have hbehind : ∀ offset, operatorAt? (c :: s) (c.utf8Size + offset) =
      (operatorAt? s offset).map fun (offset, operator) => (c.utf8Size + offset, operator) := by
    intro offset
    have hpos := c.utf8Size_pos
    rw [operatorAt?, operatorAt?, Text.splitAtByte?, if_neg (by omega),
      if_pos (Nat.le_add_right _ _), Nat.add_sub_cancel_left, Text.consCut, Option.bind_map,
      Option.map_bind]
    refine congrArg (Option.bind _) (funext fun cut => ?_)
    simp only [Function.comp_def, Option.map_map]
  rw [findOperator?, findOperator?, String.utf8Len_cons, Nat.add_comm, List.range_add,
    List.findSome?_append, hstart, List.findSome?_map, List.map_findSome?]
  exact congrArg (fun f => Option.or _ (List.findSome? f _)) (funext hbehind)

theorem findOperator?_append_of_forall {a : List Char} (h : ∀ c ∈ a, c ∉ Operator.starts)
    (s : List Char) : findOperator? (a ++ s) =
      (findOperator? s).map fun (offset, operator) => (utf8Len a + offset, operator) := by
  induction a with
  | nil => simp
  | cons c a ih =>
      rw [List.forall_mem_cons] at h
      rw [List.cons_append, findOperator?_cons, Operator.ofStart?_cons_of_not_mem h.1, ih h.2,
        Option.map_none, Option.none_or, Option.map_map]
      refine congrArg (Option.map · _) (funext fun found => ?_)
      simp only [Function.comp_apply, String.utf8Len_cons, Prod.mk.injEq, and_true]
      omega

theorem findOperator?_maskedChars_cons (m : Mark) (ms : List Mark) :
    findOperator? (maskedChars (m :: ms)) =
      ((Operator.ofStart? (visibleChars (m :: ms))).map fun (operator, _) => (0, operator)).or
        ((findOperator? (maskedChars ms)).map fun (offset, operator) =>
          (m.char.utf8Size + offset, operator)) := by
  rw [Condition.maskedChars_cons, Condition.visibleChars_cons, Mark.masked, Mark.visible]
  split
  next =>
    have hunderscore : '_' ∉ Operator.starts := by decide
    rw [Operator.ofStart?_cons_of_not_mem hunderscore, findOperator?_append_of_forall]
    · simp
    · intro c hc
      rwa [List.eq_of_mem_replicate hc]
  next =>
    have hfst := Operator.map_fst_ofStart?_cons (Condition.stretches_maskedChars ms).head?_eq m.char
    have hmap := congrArg (Option.map fun operator => (0, operator)) hfst
    rw [Option.map_map, Option.map_map] at hmap
    rw [List.singleton_append, findOperator?_cons]
    exact congrArg (Option.or · _) hmap

/-- In the mask the first operator is found at the offset at which the marked text is cut. -/
theorem findOperator?_maskedChars (ms : List Mark) : findOperator? (maskedChars ms) =
    (cutAtOperator? ms).map fun (left, operator, _) => (utf8Len (chars left), operator) := by
  induction ms with
  | nil => rfl
  | cons m ms ih =>
      rw [findOperator?_maskedChars_cons, ih, cutAtOperator?]
      cases Operator.ofStart? (visibleChars (m :: ms)) with
      | some found => rfl
      | none =>
          rw [Option.map_none, Option.none_or, Option.map_map, Option.map_map]
          refine congrArg (Option.map · _) (funext fun cut => ?_)
          simp [Nat.add_comm]

end Clause

end SqlTemplate
