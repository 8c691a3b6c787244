import Mathlib
import SqlTemplate.Json.Reading
import SqlTemplate.Json.Writing
import SqlTemplate.Proofs.JsonValues

/-!
# Documents and their texts

A document whose numbers are integers of 64 bits is read back from its text
(`Json.ofText?_compact`), unless it nests deeper than the reader goes.

Reading a text is a run of the machine over the tokens of the text, and the two are taken together
here (`Json.Reads`): each token is cut off the text and moves the machine on. The text of a
document takes the machine from a place where a value may stand to behind the value, whatever
arrays and objects are open around it (`Json.reads_compact`).
-/

namespace SqlTemplate

namespace Text

theorem takeDigits_append_of_forall {ds r : List Char} (hds : ∀ c ∈ ds, c.isDigit = true)
    (hr : ∀ c, r.head? = some c → c.isDigit = false) {limit : Nat}
    (hlimit : ds.length ≤ limit) : takeDigits limit (ds ++ r) = (ds, r) := by
  induction ds generalizing limit with
  | nil =>
      cases limit with
      | zero => rfl
      | succ limit =>
          cases r with
          | nil => rfl
          | cons c r => simp [takeDigits, hr c rfl]
  | cons c ds ih =>
      rw [List.forall_mem_cons] at hds
      cases limit with
      | zero => simp at hlimit
      | succ limit =>
          have hrest := ih hds.2 (Nat.le_of_succ_le_succ hlimit)
          rw [List.cons_append, takeDigits, if_pos hds.1, hrest]

theorem digitsValue_toDigits (n : Nat) : digitsValue (Nat.toDigits 10 n) = n := by
  have h : ∀ ds m, ds.foldl (fun n c => n * 10 + digitValue c) m = Nat.ofDigitChars 10 ds m := by
    intro ds
    induction ds with
    | nil => exact fun m => rfl
    | cons c ds ih =>
        intro m
        rw [List.foldl_cons, ih, Nat.ofDigitChars, Nat.ofDigitChars, List.foldl_cons,
          Nat.mul_comm m]
        rfl
  rw [digitsValue, h, Nat.ofDigitChars_ten_toDigits]

/-- A number that is not zero starts with another digit. -/
theorem head?_toDigits_ne_zero {n : Nat} (hn : n ≠ 0) :
    (Nat.toDigits 10 n).head? ≠ some '0' := by
  induction n using Nat.strong_induction_on with
  | _ n ih =>
      rw [Nat.toDigits_eq_if (by decide)]
      split
      next hlt =>
        have hdigit : ∀ m < 10, m ≠ 0 → [m.digitChar].head? ≠ some '0' := by decide
        exact hdigit n hlt hn
      next hge =>
        rw [List.head?_append_of_ne_nil _ Nat.toDigits_ne_nil]
        exact ih (n / 10) (by omega) (by omega)

end Text

namespace Json

open Text (hexValue? consCut)

/-- What may stand behind a value: nothing, or what goes on with the array or object around it. -/
inductive Follows : List Char → Prop where
  | nil : Follows []
  | comma (r : List Char) : Follows (',' :: r)
  | bracket (r : List Char) : Follows (']' :: r)
  | brace (r : List Char) : Follows ('\x7d' :: r)

namespace Follows

variable {r : List Char}

theorem isDigit_eq_false (h : Follows r) : ∀ c, r.head? = some c → c.isDigit = false := by
  cases h with
  | nil => exact fun c hc => nomatch hc
  | comma | bracket | brace =>
      intro c hc
      cases hc
      decide

theorem places?_eq (h : Follows r) : places? r = some ([], r) := by
  cases h with
  | _ => rfl

theorem readPower_eq (h : Follows r) : Number.readPower r = some (0, r) := by
  cases h with
  | _ => rfl

/-- The digits of a number are read up to what follows it. -/
theorem wholeDigits?_eq (h : Follows r) (n : Nat) :
    wholeDigits? (Nat.toDigits 10 n ++ r) = some (Nat.toDigits 10 n, r) := by
  by_cases hn : n = 0
  · subst hn
    rfl
  · have hhead := Text.head?_toDigits_ne_zero hn
    have htake : Text.takeDigits (Nat.toDigits 10 n ++ r).length (Nat.toDigits 10 n ++ r) =
        (Nat.toDigits 10 n, r) :=
      Text.takeDigits_append_of_forall
        (fun c hc => Nat.isDigit_of_mem_toDigits (by decide) (Nat.le_refl 10) hc)
        h.isDigit_eq_false (by simp)
    obtain ⟨c, ds, hds⟩ := List.exists_cons_of_ne_nil (Nat.toDigits_ne_nil (n := n) (b := 10))
    rw [hds] at hhead htake ⊢
    rw [List.cons_append] at htake ⊢
    have hzero : ∀ t, c :: (ds ++ r) = '0' :: t → False := by
      intro t ht
      exact hhead (congrArg some (List.cons.inj ht).1)
    rw [wholeDigits?.eq_2 _ hzero, htake]

end Follows

theorem integer?_toDigits {n : Nat} (h : n < Nat.pow 2 64) :
    integer? false (Nat.toDigits 10 n) = some n := by
  rw [integer?, Text.digitsValue_toDigits]
  exact if_pos h

theorem integer?_toDigits_negative {n : Nat} (hn : n ≠ 0) (h : n ≤ Nat.pow 2 63) :
    integer? true (Nat.toDigits 10 n) = some (-(n : Int)) := by
  rw [integer?, Text.digitsValue_toDigits]
  exact if_neg (not_or.2 ⟨hn, Nat.not_lt.2 h⟩)

theorem toDigits_append_ne_minus (n : Nat) (r s : List Char) :
    Nat.toDigits 10 n ++ r ≠ '-' :: s := by
  obtain ⟨c, ds, hds⟩ := List.exists_cons_of_ne_nil (Nat.toDigits_ne_nil (n := n) (b := 10))
  have hc : c.isDigit = true :=
    Nat.isDigit_of_mem_toDigits (by decide) (Nat.le_refl 10) (hds ▸ List.mem_cons_self)
  rw [hds, List.cons_append, Ne, List.cons.injEq, not_and_or]
  refine .inl ?_
  rintro rfl
  exact absurd hc (by decide)

/-- An integer of 64 bits is read back from its text. -/
theorem number?_toString {n : Int} (hlower : -Int.pow 2 63 ≤ n) (hupper : n < Int.pow 2 64)
    {r : List Char} (hr : Follows r) :
    number? ((toString n).toList ++ r) = some (.int n, r) := by
  have h63 : Int.pow 2 63 = (Nat.pow 2 63 : Nat) := rfl
  have h64 : Int.pow 2 64 = (Nat.pow 2 64 : Nat) := rfl
  cases n with
  | ofNat n =>
      have htext : (toString (Int.ofNat n)).toList = Nat.toDigits 10 n := Nat.toList_repr
      have hn : n < Nat.pow 2 64 := by
        rw [h64] at hupper
        exact Int.ofNat_lt.1 hupper
      rw [htext, number?.eq_2 _ (toDigits_append_ne_minus n r), hr.wholeDigits?_eq]
      simp only [Option.bind_eq_bind, Option.bind_some, hr.places?_eq, hr.readPower_eq, if_true,
        integer?_toDigits hn]
      rfl
  | negSucc n =>
      have htext : (toString (Int.negSucc n)).toList = '-' :: Nat.toDigits 10 (n + 1) := by
        change ("-" ++ Nat.repr (n + 1)).toList = _
        rw [String.toList_append, Nat.toList_repr]
        rfl
      have hn : n + 1 ≤ Nat.pow 2 63 := by
        rw [h63, Int.negSucc_eq] at hlower
        omega
      rw [htext, List.cons_append, number?]
      simp only [Option.bind_eq_bind, hr.wholeDigits?_eq, Option.bind_some, hr.places?_eq,
        hr.readPower_eq, if_true, integer?_toDigits_negative (Nat.succ_ne_zero n) hn]
      rfl

/-- A character of a string is read back from its text. -/
theorem stringTail_charText (c : Char) (s : List Char) :
    stringTail .plain (charText c ++ s) = Text.consCut c (stringTail .plain s) := by
  by_cases hcontrol : c.toNat < 0x20
  · have hall : ∀ n < 0x20, stringTail .plain (charText (Char.ofNat n) ++ s) =
        Text.consCut (Char.ofNat n) (stringTail .plain s) := by
      intro n hn
      interval_cases n <;> rfl
    rw [← Char.ofNat_toNat c]
    exact hall _ hcontrol
  · by_cases hquote : c = '"'
    · subst hquote
      rfl
    · by_cases hslash : c = '\\'
      · subst hslash
        rfl
      · have hne : ∀ d : Char, d.toNat < 0x20 → c ≠ d := by
          rintro d hd rfl
          exact hcontrol hd
        have htext : charText c = [c] := by
          rw [charText, if_neg hcontrol]
          all_goals first | assumption | exact hne _ (by decide)
        rw [htext]
        simp [stringTail, hquote, hslash, hcontrol]

/-- A string is read back up to its closing mark. -/
theorem stringTail_flatMap_charText (s r : List Char) :
    stringTail .plain (s.flatMap charText ++ '"' :: r) = some (s, r) := by
  induction s with
  | nil => rfl
  | cons c s ih =>
      rw [List.flatMap_cons, List.append_assoc, stringTail_charText, ih]
      rfl

theorem Token.ofStart?_string (s : String) (r : List Char) :
    Token.ofStart? ('"' :: (s.toList.flatMap charText ++ '"' :: r)) = some (.string s, r) := by
  rw [ofStart?, stringTail_flatMap_charText, Option.map_some]
  dsimp only
  rw [String.ofList_toList]

/-- A text that starts like a number is read as a number. -/
theorem Token.ofStart?_of_number {c : Char} (hc : c.isDigit = true ∨ c = '-') (s : List Char) :
    Token.ofStart? (c :: s) = (number? (c :: s)).map fun (j, rest) => (.scalar j, rest) := by
  rcases hc with hc | rfl
  · have hrange : 48 ≤ c.toNat ∧ c.toNat ≤ 57 := by
      simpa [Char.isDigit, UInt32.le_iff_toNat_le] using hc
    have hall : ∀ n, 48 ≤ n → n ≤ 57 → Token.ofStart? (Char.ofNat n :: s) =
        (number? (Char.ofNat n :: s)).map fun (j, rest) => (.scalar j, rest) := by
      intro n hlower hupper
      interval_cases n <;> rfl
    rw [← Char.ofNat_toNat c]
    exact hall _ hrange.1 hrange.2
  · rfl

theorem isSpace_eq_false_of_number {c : Char} (hc : c.isDigit = true ∨ c = '-') :
    isSpace c = false := by
  rcases hc with hc | rfl
  · rw [isSpace, Bool.or_eq_false_iff, Bool.or_eq_false_iff, Bool.or_eq_false_iff]
    simp only [beq_eq_false_iff_ne]
    refine ⟨⟨⟨?_, ?_⟩, ?_⟩, ?_⟩
    all_goals
      rintro rfl
      exact absurd hc (by decide)
  · decide

/-- The machine goes from one state to another while it reads the text up to the rest. -/
inductive Reads : List Char → State → List Char → State → Prop where
  | done (s : List Char) (state : State) : Reads s state s state
  | token {c : Char} {s s' r : List Char} {t : Token} {state state' state'' : State}
      (hspace : isSpace c = false) (htoken : Token.ofStart? (c :: s) = some (t, s'))
      (hlength : s'.length ≤ s.length) (hstep : state.step? t = some state')
      (hrest : Reads s' state' r state'') : Reads (c :: s) state r state''

namespace Reads

variable {s r q : List Char} {state state' state'' : State}

theorem trans (h : Reads s state r state') (h' : Reads r state' q state'') :
    Reads s state q state'' := by
  induction h with
  | done => exact h'
  | token hspace htoken hlength hstep _ ih => exact .token hspace htoken hlength hstep (ih h')

/-- A text that the machine reads to the end is cut into tokens, and they are what it reads. -/
theorem exists_tokens (h : Reads s state r state') (hr : r = []) {limit : Nat}
    (hlimit : s.length < limit) :
    ∃ ts, Token.ofTextWithin? limit s = some ts ∧ ts.foldlM State.step? state = some state' := by
  induction h generalizing limit with
  | done =>
      subst hr
      cases limit with
      | zero => cases hlimit
      | succ limit => exact ⟨[], rfl, rfl⟩
  | @token c s s' _ t _ _ _ hspace htoken hlength hstep _ ih =>
      cases limit with
      | zero => cases hlimit
      | succ limit =>
          rw [List.length_cons] at hlimit
          have hlimit' : s'.length < limit := by omega
          obtain ⟨ts, hts, hfold⟩ := ih hr hlimit'
          have hdrop : (c :: s).dropWhile isSpace = c :: s := by
            rw [List.dropWhile_cons, if_neg (by simp [hspace])]
          refine ⟨t :: ts, ?_, ?_⟩
          · rw [Token.ofTextWithin?, hdrop]
            dsimp only
            rw [htoken]
            dsimp only
            rw [hts]
            rfl
          · rw [List.foldlM_cons, hstep]
            exact hfold

/-- A document is read where the machine finishes with it. -/
theorem ofText?_eq {text : String} {j : Json}
    (h : Reads text.toList .start [] (.finished j)) : ofText? text = some j := by
  obtain ⟨ts, hts, hfold⟩ := h.exists_tokens rfl (Nat.lt_succ_self _)
  have htokens : Token.ofText? text.toList = some ts := hts
  rw [ofText?, htokens]
  change (ts.foldlM State.step? State.start).bind _ = _
  rw [hfold]
  rfl

end Reads

mutual

/-- Whether the document can be told from its text: its numbers are integers that 64 bits hold,
and the members of its objects stand in the order of their names. -/
def IsExact : Json → Prop
  | .null | .bool _ | .string _ => True
  | .int n => -Int.pow 2 63 ≤ n ∧ n < Int.pow 2 64
  | .float _ => False
  | .array items => AreExact items
  | .object members => (Entries.names members).Pairwise (· < ·) ∧ MembersAreExact members

def AreExact : List Json → Prop
  | [] => True
  | j :: js => IsExact j ∧ AreExact js

def MembersAreExact : List (String × Json) → Prop
  | [] => True
  | (_, j) :: ms => IsExact j ∧ MembersAreExact ms

end

mutual

/-- How deep arrays and objects nest in the document. -/
def depth : Json → Nat
  | .array items => depthItems items + 1
  | .object members => depthMembers members + 1
  | _ => 0

def depthItems : List Json → Nat
  | [] => 0
  | j :: js => max (depth j) (depthItems js)

def depthMembers : List (String × Json) → Nat
  | [] => 0
  | (_, j) :: ms => max (depth j) (depthMembers ms)

end

theorem intercalate_cons (sep : Char) (s : List Char) (ss : List (List Char)) :
    [sep].intercalate (s :: ss) = s ++ ss.flatMap (sep :: ·) := by
  induction ss generalizing s with
  | nil => simp
  | cons t ss ih => simp [List.intercalate_cons_cons, ih]

/-- The text of an item with the comma in front of it. -/
def itemText (j : Json) : List Char :=
  ',' :: j.compact.toList

/-- The text of a member. -/
def memberText (m : String × Json) : List Char :=
  (stringText m.1).toList ++ ':' :: m.2.compact.toList

theorem compactItems_eq_map (items : List Json) : compactItems items = items.map compact := by
  induction items with
  | nil => rfl
  | cons j items ih => rw [compactItems, ih, List.map_cons]

theorem map_toList_compactMembers (members : List (String × Json)) :
    (compactMembers members).map String.toList = members.map memberText := by
  induction members with
  | nil => rfl
  | cons m members ih =>
      rw [compactMembers, List.map_cons, List.map_cons, ih, String.toList_append,
        String.toList_append, List.append_assoc]
      rfl

theorem toList_compact_array_cons (j : Json) (js : List Json) :
    (compact (.array (j :: js))).toList =
      '[' :: (j.compact.toList ++ (js.flatMap itemText ++ [']'])) := by
  have hitems : [','].intercalate ((compactItems (j :: js)).map String.toList) =
      j.compact.toList ++ js.flatMap itemText := by
    rw [compactItems_eq_map, List.map_map, List.map_cons, intercalate_cons, List.flatMap_map]
    rfl
  rw [compact, String.toList_append, String.toList_append, String.toList_intercalate]
  change '[' :: ([','].intercalate _ ++ [']']) = _
  rw [hitems, List.append_assoc]

theorem toList_compact_object_cons (m : String × Json) (ms : List (String × Json)) :
    (compact (.object (m :: ms))).toList =
      '\x7b' :: (memberText m ++ (ms.flatMap (fun m => ',' :: memberText m) ++ ['\x7d'])) := by
  rw [compact, String.toList_append, String.toList_append, String.toList_intercalate,
    map_toList_compactMembers, List.map_cons]
  change '\x7b' :: ([','].intercalate _ ++ ['\x7d']) = _
  rw [intercalate_cons, List.flatMap_map, List.append_assoc]

/-- A member behind all others is put at the end. -/
theorem insertMember_eq_append {name : String} {ms : Entries Json}
    (h : ∀ other ∈ ms.names, other < name) (j : Json) :
    insertMember name j ms = ms ++ [(name, j)] := by
  induction ms with
  | nil => rfl
  | cons m ms ih =>
      obtain ⟨other, w⟩ := m
      rw [Entries.names, List.map_cons, List.forall_mem_cons] at h
      rw [insertMember, if_neg (not_lt_of_gt h.1), if_neg (ne_of_gt h.1), ih h.2]
      rfl

/-- Members in the order of their names are put one behind the other. -/
theorem insertMembers_eq_append {members ms : Entries Json}
    (h : (Entries.names (ms ++ members)).Pairwise (· < ·)) :
    insertMembers members ms = ms ++ members := by
  induction members generalizing ms with
  | nil => exact (List.append_nil ms).symm
  | cons m members ih =>
      have hlast : ∀ other ∈ ms.names, other < m.1 := by
        intro other hother
        rw [Entries.names, List.map_append, List.pairwise_append] at h
        exact h.2.2 other hother m.1 List.mem_cons_self
      have hput : insertMember m.1 m.2 ms = ms ++ [m] := insertMember_eq_append hlast m.2
      change insertMembers members (insertMember m.1 m.2 ms) = _
      rw [List.append_cons] at h ⊢
      rw [hput]
      exact ih h

namespace State

/-- Where a value may stand. -/
def AwaitsValue (expected : Expected) : Prop :=
  expected = .value ∨ expected = .item

/-- Where the name of a member may stand. -/
def AwaitsName (expected : Expected) : Prop :=
  expected = .name ∨ expected = .member

variable {nested : List Open} {expected : Expected}

theorem step?_scalar (h : AwaitsValue expected) (j : Json) :
    step? (.reading nested expected) (.scalar j) = complete? nested j :=
  if_pos h

theorem step?_string (h : AwaitsValue expected) (s : String) :
    step? (.reading nested expected) (.string s) = complete? nested (.string s) := by
  rcases h with rfl | rfl
  · rfl
  · rfl

theorem step?_openArray (h : AwaitsValue expected) (hnested : nested.length < maxNesting) :
    step? (.reading nested expected) .openArray = some (.reading (.array [] :: nested) .item) :=
  if_pos ⟨h, hnested⟩

theorem step?_openObject (h : AwaitsValue expected) (hnested : nested.length < maxNesting) :
    step? (.reading nested expected) .openObject =
      some (.reading (.object [] :: nested) .member) :=
  if_pos ⟨h, hnested⟩

theorem step?_name (h : AwaitsName expected) (members : Entries Json) (name : String) :
    step? (.reading (.object members :: nested) expected) (.string name) =
      some (.reading (.member members name :: nested) .colon) := by
  rcases h with rfl | rfl
  · rfl
  · rfl

end State

/-- One token is read. -/
theorem reads_of_ofStart? {c : Char} {s r : List Char} {t : Token} {state state' : State}
    (htoken : Token.ofStart? (c :: s) = some (t, r)) (hspace : isSpace c = false)
    (hlength : r.length ≤ s.length) (hstep : state.step? t = some state') :
    Reads (c :: s) state r state' :=
  .token hspace htoken hlength hstep (.done r state')

theorem follows_items (js : List Json) (r : List Char) :
    Follows (js.flatMap itemText ++ ']' :: r) := by
  cases js with
  | nil => exact .bracket r
  | cons j js => exact .comma _

theorem follows_members (ms : List (String × Json)) (r : List Char) :
    Follows (ms.flatMap (fun m => ',' :: memberText m) ++ '\x7d' :: r) := by
  cases ms with
  | nil => exact .brace r
  | cons m ms => exact .comma _

theorem toList_toString_int (n : Int) :
    ∃ c s, (toString n).toList = c :: s ∧ (c.isDigit = true ∨ c = '-') := by
  cases n with
  | ofNat n =>
      obtain ⟨c, ds, hds⟩ := List.exists_cons_of_ne_nil (Nat.toDigits_ne_nil (n := n) (b := 10))
      have hc : c.isDigit = true :=
        Nat.isDigit_of_mem_toDigits (by decide) (Nat.le_refl 10) (hds ▸ List.mem_cons_self)
      have htext : (toString (Int.ofNat n)).toList = Nat.toDigits 10 n := Nat.toList_repr
      exact ⟨c, ds, htext.trans hds, .inl hc⟩
  | negSucc n => exact ⟨'-', _, String.toList_append, .inr rfl⟩

section Runs

variable {nested : List Open} {expected : Expected} {r : List Char} {state : State}

theorem reads_int {n : Int} (h : (Json.int n).IsExact) (hexpected : State.AwaitsValue expected)
    (hr : Follows r) (hstate : State.complete? nested (.int n) = some state) :
    Reads ((toString n).toList ++ r) (.reading nested expected) r state := by
  have hnumber := number?_toString h.1 h.2 hr
  obtain ⟨c, s, hs, hc⟩ := toList_toString_int n
  rw [hs, List.cons_append] at hnumber ⊢
  have htoken : Token.ofStart? (c :: (s ++ r)) = some (.scalar (.int n), r) := by
    rw [Token.ofStart?_of_number hc, hnumber]
    rfl
  exact reads_of_ofStart? htoken (isSpace_eq_false_of_number hc) (by simp)
    ((State.step?_scalar hexpected _).trans hstate)

theorem reads_string (s : String) (hexpected : State.AwaitsValue expected)
    (hstate : State.complete? nested (.string s) = some state) :
    Reads ((stringText s).toList ++ r) (.reading nested expected) r state := by
  rw [stringText, String.toList_ofList, List.cons_append, List.append_assoc]
  exact reads_of_ofStart? (Token.ofStart?_string s r) (by decide) (by simp; omega)
    ((State.step?_string hexpected s).trans hstate)

/-- The name of a member is read, and its value. -/
theorem reads_memberText {name : String} {j : Json} {members : Entries Json}
    (hexpected : State.AwaitsName expected)
    (hj : Reads (j.compact.toList ++ r) (.reading (.member members name :: nested) .value) r
      state) :
    Reads (memberText (name, j) ++ r) (.reading (.object members :: nested) expected) r state := by
  rw [memberText, stringText, String.toList_ofList, List.cons_append, List.cons_append,
    List.append_assoc, List.append_assoc]
  refine .trans (reads_of_ofStart? (Token.ofStart?_string name _) (by decide) (by simp; omega)
    (State.step?_name hexpected members name)) ?_
  exact .token (by decide) rfl (Nat.le_refl _) rfl hj

mutual

/-- The text of a document is read as the document where a value may stand. -/
theorem reads_compact (j : Json) (h : j.IsExact) {nested : List Open} {expected : Expected}
    (hexpected : State.AwaitsValue expected) (hdepth : nested.length + j.depth ≤ maxNesting)
    {r : List Char} (hr : Follows r) {state : State}
    (hstate : State.complete? nested j = some state) :
    Reads (j.compact.toList ++ r) (.reading nested expected) r state := by
  match j with
  | .null | .bool true | .bool false =>
      exact reads_of_ofStart? rfl (by decide) (by simp; omega)
        ((State.step?_scalar hexpected _).trans hstate)
  | .int n => exact reads_int h hexpected hr hstate
  | .float x => exact h.elim
  | .string s => exact reads_string s hexpected hstate
  | .array [] =>
      have hnested : nested.length < maxNesting := hdepth
      exact .token (by decide) rfl (Nat.le_refl _) (State.step?_openArray hexpected hnested)
        (reads_of_ofStart? rfl (by decide) (Nat.le_refl _) hstate)
  | .array (j :: js) =>
      rw [depth, depthItems] at hdepth
      rw [toList_compact_array_cons, List.cons_append, List.append_assoc, List.append_assoc]
      refine .token (by decide) rfl (Nat.le_refl _)
        (State.step?_openArray hexpected (by omega)) ?_
      have hfirst : Reads _ (.reading (.array [] :: nested) .item) _
          (.reading (.array [j] :: nested) .separator) :=
        reads_compact j h.1 (.inr rfl) (by rw [List.length_cons]; omega) (follows_items js r) rfl
      exact hfirst.trans (reads_items js h.2 [j] (by omega) hstate)
  | .object [] =>
      have hnested : nested.length < maxNesting := hdepth
      exact .token (by decide) rfl (Nat.le_refl _) (State.step?_openObject hexpected hnested)
        (reads_of_ofStart? rfl (by decide) (Nat.le_refl _) hstate)
  | .object ((name, j) :: ms) =>
      obtain ⟨hsorted, hj, hms⟩ := h
      rw [depth, depthMembers] at hdepth
      rw [toList_compact_object_cons, List.cons_append, List.append_assoc, List.append_assoc]
      refine .token (by decide) rfl (Nat.le_refl _)
        (State.step?_openObject hexpected (by omega)) ?_
      have hfirst : Reads _ (.reading (.member [] name :: nested) .value) _
          (.reading (.object [(name, j)] :: nested) .separator) :=
        reads_compact j hj (.inl rfl) (by rw [List.length_cons]; omega) (follows_members ms r) rfl
      refine (reads_memberText (.inr rfl) hfirst).trans ?_
      refine reads_members ms hms [(name, j)] (by omega) ?_
      rw [insertMembers_eq_append hsorted]
      exact hstate

/-- The items behind another one are read up to the end of the array. -/
theorem reads_items (items : List Json) (h : AreExact items) {nested : List Open}
    (acc : List Json) (hdepth : nested.length + 1 + depthItems items ≤ maxNesting) {r : List Char}
    {state : State}
    (hstate : State.complete? nested (.array (acc.reverse ++ items)) = some state) :
    Reads (items.flatMap itemText ++ ']' :: r) (.reading (.array acc :: nested) .separator) r
      state := by
  match items with
  | [] =>
      rw [List.append_nil] at hstate
      exact reads_of_ofStart? rfl (by decide) (Nat.le_refl _) hstate
  | j :: js =>
      rw [depthItems] at hdepth
      rw [List.flatMap_cons, itemText, List.cons_append, List.cons_append, List.append_assoc]
      refine .token (by decide) rfl (Nat.le_refl _) rfl ?_
      have hfirst : Reads _ (.reading (.array acc :: nested) .value) _
          (.reading (.array (j :: acc) :: nested) .separator) :=
        reads_compact j h.1 (.inl rfl) (by rw [List.length_cons]; omega) (follows_items js r) rfl
      refine hfirst.trans (reads_items js h.2 (j :: acc) (by omega) ?_)
      rwa [List.reverse_cons, List.append_assoc]

/-- The members behind another one are read up to the end of the object. -/
theorem reads_members (members : List (String × Json)) (h : MembersAreExact members)
    {nested : List Open} (acc : Entries Json)
    (hdepth : nested.length + 1 + depthMembers members ≤ maxNesting) {r : List Char}
    {state : State}
    (hstate : State.complete? nested (.object (insertMembers members acc)) = some state) :
    Reads (members.flatMap (fun m => ',' :: memberText m) ++ '\x7d' :: r)
      (.reading (.object acc :: nested) .separator) r state := by
  match members with
  | [] => exact reads_of_ofStart? rfl (by decide) (Nat.le_refl _) hstate
  | (name, j) :: ms =>
      rw [depthMembers] at hdepth
      rw [List.flatMap_cons, List.cons_append, List.cons_append, List.append_assoc]
      refine .token (by decide) rfl (Nat.le_refl _) rfl ?_
      have hfirst : Reads _ (.reading (.member acc name :: nested) .value) _
          (.reading (.object (insertMember name j acc) :: nested) .separator) :=
        reads_compact j h.1 (.inl rfl) (by rw [List.length_cons]; omega) (follows_members ms r) rfl
      exact (reads_memberText (.inl rfl) hfirst).trans
        (reads_members ms h.2 (insertMember name j acc) (by omega) hstate)

end

end Runs

/-- A document with integers of 64 bits as its numbers is read back from its text. -/
theorem ofText?_compact {j : Json} (h : j.IsExact) (hdepth : j.depth ≤ maxNesting) :
    ofText? j.compact = some j := by
  have hreads : Reads (j.compact.toList ++ []) .start [] (.finished j) :=
    reads_compact j h (.inl rfl) (by simpa using hdepth) .nil rfl
  rw [List.append_nil] at hreads
  exact hreads.ofText?_eq

theorem membersAreExact_iff {ms : Entries Json} :
    MembersAreExact ms ↔ ∀ m ∈ ms, m.2.IsExact := by
  induction ms with
  | nil => simp [MembersAreExact]
  | cons m ms ih => rw [MembersAreExact, ih, List.forall_mem_cons]

theorem mem_insertMember {name : String} {j : Json} {m : String × Json} {ms : Entries Json}
    (h : m ∈ insertMember name j ms) : m = (name, j) ∨ m ∈ ms := by
  induction ms with
  | nil => exact .inl (List.mem_singleton.1 h)
  | cons first ms ih =>
      rw [insertMember] at h
      split at h
      next => exact List.mem_cons.1 h
      next =>
        split at h
        next =>
          rcases List.mem_cons.1 h with h | h
          · exact .inl h
          · exact .inr (List.mem_cons_of_mem _ h)
        next =>
          rcases List.mem_cons.1 h with h | h
          · exact .inr (List.mem_cons.2 (.inl h))
          · exact (ih h).imp_right (List.mem_cons_of_mem _)

theorem membersAreExact_insertMembers {members ms : Entries Json} (h : MembersAreExact members)
    (hms : MembersAreExact ms) : MembersAreExact (insertMembers members ms) := by
  induction members generalizing ms with
  | nil => exact hms
  | cons m members ih =>
      refine ih h.2 (membersAreExact_iff.2 fun n hn => ?_)
      rcases mem_insertMember hn with rfl | hn
      · exact h.1
      · exact membersAreExact_iff.1 hms n hn

theorem isExact_ofMembers {members : Entries Json} (h : MembersAreExact members) :
    (ofMembers members).IsExact :=
  ⟨pairwise_insertMembers members .nil, membersAreExact_insertMembers h trivial⟩

end Json

namespace Value

mutual

/-- The document of a value that documents keep can be told from its text. -/
theorem isExact_toJson (v : Value) (h : v.IsJson) : v.toJson.IsExact := by
  match v with
  | .null | .bool _ | .string _ => trivial
  | .int64 n =>
      have hupper := n.toInt_lt
      exact ⟨n.le_toInt, lt_trans hupper (by decide)⟩
  | .list items => exact areExact_toJsonItems items h
  | .map entries => exact Json.isExact_ofMembers (membersAreExact_toJsonEntries entries h.2)
  | .int32 _ | .float64 _ | .decimal _ | .bytes _ | .date _ | .dateTime _ | .time _ | .object _ =>
      exact h.elim

theorem areExact_toJsonItems (items : List Value) (h : AreJson items) :
    Json.AreExact (toJsonItems items) := by
  match items with
  | [] => trivial
  | v :: vs => exact ⟨isExact_toJson v h.1, areExact_toJsonItems vs h.2⟩

theorem membersAreExact_toJsonEntries (entries : List (String × Value))
    (h : EntriesAreJson entries) : Json.MembersAreExact (toJsonEntries entries) := by
  match entries with
  | [] => trivial
  | (_, v) :: es => exact ⟨isExact_toJson v h.1, membersAreExact_toJsonEntries es h.2⟩

end

end Value

end SqlTemplate
