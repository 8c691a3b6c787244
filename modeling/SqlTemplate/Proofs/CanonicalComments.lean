import Mathlib
import SqlTemplate.Proofs.Grammar
import SqlTemplate.Proofs.Trimming

/-!
# Canonical comments

A directive can be written in several ways: with blanks around its expression, with a quote
mark that is doubled or not. `Directive.canonical` is the one that is printed, and
`canonicalBody` the body of a comment in this form. The comment says the same in it
(`Source.item_canonicalBody`), wherever it stands, and no closing mark comes into the body
(`closing_not_infix_canonicalBody`).
-/

namespace SqlTemplate

namespace Text

theorem trimStart_cons_of_not_isBlank {c : Char} (h : isBlank c = false) (s : List Char) :
    trimStart (c :: s) = c :: s := by
  rw [trimStart_cons, h, if_neg Bool.false_ne_true]

theorem trim_cons_of_not_isBlank {c : Char} (h : isBlank c = false) (s : List Char) :
    trim (c :: s) = c :: trimEnd s := by
  rw [trim, trimStart_cons_of_not_isBlank h, trimEnd_cons, if_neg fun hs => by simp [h] at hs]

theorem trim_quote (s : List Char) : trim (quote s) = quote s := by
  have hmark : isBlank quoteMark = false := by decide
  rw [quote, trim_cons_of_not_isBlank hmark, trimEnd_append_cons hmark, trimEnd_nil]

theorem dropStart?_append_of_eq_some {p s r : List Char} (h : dropStart? p s = some r)
    (t : List Char) : dropStart? p (s ++ t) = some (r ++ t) := by
  rw [← append_of_dropStart?_eq_some h, List.append_assoc, dropStart?_append]

theorem trimStart_append_of_eq_cons {c : Char} {s t : List Char} (h : trimStart s = c :: t)
    (r : List Char) : trimStart (s ++ r) = c :: (t ++ r) := by
  induction s with
  | nil => cases h
  | cons d s ih =>
      rw [trimStart_cons] at h
      rw [List.cons_append, trimStart_cons]
      split at h
      next hd =>
        rw [if_pos hd]
        exact ih h
      next hd =>
        cases h
        rw [if_neg hd]

theorem exists_append_of_trim_eq_cons {c : Char} {s t : List Char} (h : trim s = c :: t) :
    ∃ r, trimStart s = c :: (t ++ r) := by
  obtain ⟨r, hr⟩ := isPrefix_trimEnd (trimStart s)
  rw [← trim, h] at hr
  exact ⟨r, hr.symm⟩

/-- A text starts with its first field. -/
theorem isPrefix_of_fields_eq_cons {sep : Char} {s f : List Char} {fs : List (List Char)}
    (h : fields sep s = f :: fs) : f <+: s := by
  induction s generalizing f fs with
  | nil =>
      cases h
      exact List.nil_prefix
  | cons c s ih =>
      rw [fields] at h
      split at h
      next =>
        cases h
        exact List.nil_prefix
      next =>
        split at h
        next hs => exact absurd hs (fields_ne_nil sep s)
        next g gs hs =>
          cases h
          obtain ⟨r, rfl⟩ := ih hs
          exact ⟨r, rfl⟩

/-- No blank stands in an identifier. -/
theorem isBlank_eq_false_of_continuesIdentifier {c : Char} (h : continuesIdentifier c = true) :
    isBlank c = false := by
  have hcodes : ∀ n ∈ List.range' 9 5 ++ [0x20, 0x85, 0xA0, 0x1680] ++ List.range' 0x2000 11 ++
      [0x2028, 0x2029, 0x202F, 0x205F, 0x3000], continuesIdentifier (Char.ofNat n) = false := by
    decide +kernel
  by_contra hblank
  have hmem : c.toNat ∈ List.range' 9 5 ++ [0x20, 0x85, 0xA0, 0x1680] ++
      List.range' 0x2000 11 ++ [0x2028, 0x2029, 0x202F, 0x205F, 0x3000] := by
    simp [isBlank] at hblank
    simp
    omega
  have hcode := hcodes _ hmem
  rw [Char.ofNat_toNat, h] at hcode
  cases hcode

/-- No identifier starts with a blank. -/
theorem isBlank_eq_false_of_startsIdentifier {c : Char} (h : startsIdentifier c = true) :
    isBlank c = false :=
  isBlank_eq_false_of_continuesIdentifier (continuesIdentifier_of_startsIdentifier h)

end Text

namespace Template

open Text (trim trimStart trimEnd quote quoteMark isBlank)

/-- A closing mark in a text starts at its first character or behind it. -/
theorem closing_infix_cons_iff (c : Char) (s : List Char) :
    commentClosing <:+: c :: s ↔ (c = '*' ∧ s.head? = some '/') ∨ commentClosing <:+: s := by
  rw [List.infix_cons_iff, commentClosing]
  cases s with
  | nil => simp
  | cons d s => simp [List.cons_prefix_cons, eq_comm]

theorem closing_infix_append_of_star_notMem {s : List Char} (h : '*' ∉ s) (t : List Char) :
    commentClosing <:+: s ++ t ↔ commentClosing <:+: t := by
  induction s with
  | nil => rfl
  | cons c s ih =>
      rw [List.mem_cons, not_or] at h
      rw [List.cons_append, closing_infix_cons_iff, ih h.2]
      constructor
      · rintro (hc | ht)
        · exact absurd hc.1.symm h.1
        · exact ht
      · exact .inr

theorem closing_infix_double_iff (s : List Char) :
    commentClosing <:+: Text.double s ↔ commentClosing <:+: s := by
  induction s with
  | nil => rfl
  | cons c s ih =>
      have hhead : (Text.double s).head? = s.head? := by
        cases s with
        | nil => rfl
        | cons d s =>
            rw [Text.double]
            split
            next hd => rw [hd]; rfl
            next => rfl
      rw [Text.double, closing_infix_cons_iff]
      split
      next hc =>
        have hne : quoteMark ≠ '*' := by decide
        rw [closing_infix_cons_iff, closing_infix_cons_iff, ih, hc]
        simp only [hne, false_and, false_or]
      next => rw [closing_infix_cons_iff, ih, hhead]

theorem closing_infix_of_undouble {s : List Char}
    (h : commentClosing <:+: Text.undouble s) : commentClosing <:+: s := by
  fun_induction Text.undouble s with
  | case1 => exact h
  | case2 => exact h
  | case3 c d s hquotes ih =>
      obtain ⟨rfl, rfl⟩ := hquotes
      rw [closing_infix_cons_iff] at h
      rcases h with ⟨hc, -⟩ | h
      · cases hc
      · exact (ih h).trans (List.suffix_append [quoteMark, quoteMark] s).isInfix
  | case4 c d s hquotes ih =>
      have hhead : (Text.undouble (d :: s)).head? = some d := by
        cases s with
        | nil => rfl
        | cons e s =>
            rw [Text.undouble]
            split
            next hd => rw [hd.1]; rfl
            next => rfl
      rw [closing_infix_cons_iff, hhead] at h
      rw [closing_infix_cons_iff]
      exact h.imp_right ih

namespace Directive

/-- The words for a directive without an operand. -/
def keywords : List (List Char) :=
  ["ELSE".toList, "END".toList, "BEGIN".toList, "FIRST".toList, "LAST".toList]

theorem mem_keywords_of_ofKeyword?_eq_some {w : String} {d : Directive}
    (h : ofKeyword? w = some d) : w.toList ∈ keywords := by
  unfold ofKeyword? at h
  split at h
  next => simp [keywords]
  next => simp [keywords]
  next => simp [keywords]
  next => simp [keywords]
  next => simp [keywords]
  next => cases h

theorem ofKeyword?_eq_none {s : List Char} (h : s ∉ keywords) :
    ofKeyword? (String.ofList s) = none := by
  obtain ⟨w, rfl⟩ : ∃ w : String, s = w.toList := ⟨_, String.toList_ofList.symm⟩
  rw [String.ofList_toList]
  cases hd : ofKeyword? w with
  | none => rfl
  | some d => exact absurd (mem_keywords_of_ofKeyword?_eq_some hd) h

/-- The directive in the form in which it is printed. -/
def canonical : Directive → Directive
  | .ifMark e => .ifMark (trim e)
  | .forMark e => .forMark (trim e)
  | .nextMark t => .nextMark ((Source.quoted? t).elim t quote)
  | .bind e => .bind (trim e)
  | .embedded mode e => .embedded mode (trim e)
  | d => d

/-- The body of a comment that asks for the directive; a plain comment keeps its own. -/
def body (plainBody : List Char) : Directive → List Char
  | .ifMark e => "IF ".toList ++ e
  | .elseMark => "ELSE".toList
  | .endMark => "END".toList
  | .forMark e => "FOR ".toList ++ e
  | .beginMark => "BEGIN".toList
  | .firstMark => "FIRST".toList
  | .lastMark => "LAST".toList
  | .nextMark t => "NEXT ".toList ++ t
  | .bind e => e
  | .embedded mode e => mode.sigil.toList ++ e
  | .plain => plainBody

theorem ofBody_ifMark (e : List Char) : ofBody ("IF ".toList ++ e) = .ifMark e := by
  have hkey : ofKeyword? (String.ofList (trim ("IF ".toList ++ e))) = none := by
    have hbody : "IF ".toList ++ e = 'I' :: 'F' :: ' ' :: e := rfl
    apply ofKeyword?_eq_none
    rw [hbody, Text.trim_cons_of_not_isBlank (by decide)]
    simp [keywords]
  rw [ofBody, hkey]
  simp [openings, Text.dropStart?]

theorem ofBody_forMark (e : List Char) : ofBody ("FOR ".toList ++ e) = .forMark e := by
  have hkey : ofKeyword? (String.ofList (trim ("FOR ".toList ++ e))) = none := by
    have hbody : "FOR ".toList ++ e = 'F' :: 'O' :: 'R' :: ' ' :: e := rfl
    have hO : isBlank 'O' = false := by decide
    apply ofKeyword?_eq_none
    rw [hbody, Text.trim_cons_of_not_isBlank (by decide), Text.trimEnd_cons, hO,
      if_neg (by simp)]
    simp [keywords]
  rw [ofBody, hkey]
  simp [openings, Text.dropStart?]

theorem ofBody_nextMark (t : List Char) : ofBody ("NEXT ".toList ++ t) = .nextMark t := by
  have hkey : ofKeyword? (String.ofList (trim ("NEXT ".toList ++ t))) = none := by
    have hbody : "NEXT ".toList ++ t = 'N' :: 'E' :: 'X' :: 'T' :: ' ' :: t := rfl
    apply ofKeyword?_eq_none
    rw [hbody, Text.trim_cons_of_not_isBlank (by decide)]
    simp [keywords]
  rw [ofBody, hkey]
  simp [openings, Text.dropStart?]

/-- A sigil is read in its own mode, unless what stands behind it makes it a longer one. -/
theorem ofBody_embedded {mode : EmbeddedMode} {c : Char} (hdollar : c ≠ '$') (hpoint : c ≠ '.')
    (e : List Char) : ofBody (mode.sigil.toList ++ c :: e) = .embedded mode (c :: e) := by
  have hkey : ofKeyword? (String.ofList (trim (mode.sigil.toList ++ c :: e))) = none := by
    obtain ⟨s, hs⟩ : ∃ s, mode.sigil.toList ++ c :: e = '$' :: s := by
      cases mode with
      | normal => exact ⟨_, rfl⟩
      | replaceOnly => exact ⟨_, rfl⟩
      | terminalPoint => exact ⟨_, rfl⟩
    apply ofKeyword?_eq_none
    rw [hs, Text.trim_cons_of_not_isBlank (by decide)]
    simp [keywords]
  rw [ofBody, hkey]
  cases mode with
  | normal =>
      simp [openings, Text.dropStart?, EmbeddedMode.sigil, Ne.symm hdollar, Ne.symm hpoint]
  | replaceOnly => simp [openings, Text.dropStart?, EmbeddedMode.sigil]
  | terminalPoint => simp [openings, Text.dropStart?, EmbeddedMode.sigil]

theorem append_of_findSome?_openings {b : List Char} {d : Directive}
    (h : (openings.findSome? fun (start, f) => (Text.dropStart? start.toList b).map f) =
      some d) : ∃ p ∈ openings, ∃ e, b = p.1.toList ++ e ∧ d = p.2 e := by
  obtain ⟨p, hp, hd⟩ := List.exists_of_findSome?_eq_some h
  obtain ⟨e, he, rfl⟩ := Option.map_eq_some_iff.1 hd
  exact ⟨p, hp, e, (Text.append_of_dropStart?_eq_some he).symm, rfl⟩

/-- The body of a comment is written out again, but for blanks around a word. -/
theorem body_ofBody (b : List Char) : (ofBody b).body b = b ∨ (ofBody b).body b ∈ keywords := by
  rw [ofBody]
  split
  next d hd =>
    right
    unfold ofKeyword? at hd
    split at hd
    next => cases hd; exact (by decide : "ELSE".toList ∈ keywords)
    next => cases hd; exact (by decide : "END".toList ∈ keywords)
    next => cases hd; exact (by decide : "BEGIN".toList ∈ keywords)
    next => cases hd; exact (by decide : "FIRST".toList ∈ keywords)
    next => cases hd; exact (by decide : "LAST".toList ∈ keywords)
    next => cases hd
  next =>
    left
    split
    next d hd =>
      obtain ⟨p, hp, e, rfl, rfl⟩ := append_of_findSome?_openings hd
      simp only [openings, List.mem_cons, List.not_mem_nil, or_false] at hp
      rcases hp with rfl | rfl | rfl | rfl | rfl | rfl
      all_goals rfl
    next =>
      split
      next => rfl
      next => rfl

theorem ofBody_trim_of_eq_bind {b e : List Char} (h : ofBody b = .bind e) :
    e = b ∧ ofBody (trim b) = .bind (trim b) := by
  rw [ofBody] at h
  split at h
  next d hd =>
    rw [h] at hd
    unfold ofKeyword? at hd
    split at hd <;> cases hd
  next hkey =>
    split at h
    next d hd =>
      obtain ⟨p, hp, e, rfl, rfl⟩ := append_of_findSome?_openings hd
      simp only [openings, List.mem_cons, List.not_mem_nil, or_false] at hp
      rcases hp with rfl | rfl | rfl | rfl | rfl | rfl
      all_goals cases h
    next hopen =>
      split at h
      next hnames =>
        cases h
        refine ⟨rfl, ?_⟩
        -- The first character is no blank, so nothing is trimmed before it.
        obtain ⟨c, s, rfl⟩ : ∃ c s, b = c :: s := by
          cases b with
          | nil => cases hnames
          | cons c s => exact ⟨c, s, rfl⟩
        have hblank : isBlank c = false := by
          rw [namesValue, Bool.or_eq_true, beq_iff_eq] at hnames
          rcases hnames with hc | rfl
          · exact Text.isBlank_eq_false_of_startsIdentifier hc
          · decide
        have htrim : trim (c :: s) = c :: trimEnd s := Text.trim_cons_of_not_isBlank hblank s
        have hstart : trim (c :: s) <+: c :: s := by
          rw [trim, Text.trimStart_cons_of_not_isBlank hblank]
          exact Text.isPrefix_trimEnd (c :: s)
        have hnone : (openings.findSome? fun (start, f) =>
            (Text.dropStart? start.toList (trim (c :: s))).map f) = none := by
          rw [List.findSome?_eq_none_iff] at hopen ⊢
          rintro ⟨start, f⟩ hp
          obtain ⟨t, ht⟩ := hstart
          cases hdrop : Text.dropStart? start.toList (trim (c :: s)) with
          | none => simp only [hdrop, Option.map_none]
          | some r =>
              have hlong := Text.dropStart?_append_of_eq_some hdrop t
              have hnone : (Text.dropStart? start.toList (c :: s)).map f = none := hopen _ hp
              rw [ht] at hlong
              rw [hlong] at hnone
              cases hnone
        rw [ofBody, Text.trim_trim, hkey, hnone, htrim]
        exact if_pos hnames
      next => cases h

end Directive

theorem closing_infix_concat_of_ne {c : Char} (h : c ≠ '/') (s : List Char) :
    commentClosing <:+: s ++ [c] ↔ commentClosing <:+: s := by
  rw [List.infix_concat_iff, commentClosing]
  constructor
  · rintro (hend | hs)
    · obtain ⟨t, ht⟩ := hend
      have hlast : t ++ ['*'] ++ ['/'] = s ++ [c] := by simpa using ht
      exact absurd (List.append_inj_right' hlast rfl) (by simpa using Ne.symm h)
    · exact hs
  · exact .inr

theorem closing_infix_quote_iff (s : List Char) :
    commentClosing <:+: quote s ↔ commentClosing <:+: s := by
  have hstar : quoteMark ≠ '*' := by decide
  have hslash : quoteMark ≠ '/' := by decide
  rw [quote, closing_infix_cons_iff, closing_infix_concat_of_ne hslash, closing_infix_double_iff]
  simp only [hstar, false_and, false_or]

/-- The text of a separator stands in the comment, but for the quote marks in it. -/
theorem closing_infix_of_quoted?_eq_some {t s : List Char} (h : Source.quoted? t = some s)
    (hs : commentClosing <:+: s) : commentClosing <:+: t := by
  obtain ⟨u, hu, h⟩ := Option.bind_eq_some_iff.1 h
  obtain ⟨inner, hinner, rfl⟩ := Option.map_eq_some_iff.1 h
  have htrim : [quoteMark] ++ u = trim t := Text.append_of_dropStart?_eq_some hu
  have hstart : inner <+: u := by
    obtain ⟨r, hr, rfl⟩ := Option.map_eq_some_iff.1 hinner
    have hreverse := congrArg List.reverse (Text.append_of_dropStart?_eq_some hr)
    rw [List.reverse_append, List.reverse_reverse, List.reverse_reverse] at hreverse
    exact ⟨_, hreverse⟩
  have hinside : inner <:+: trim t := hstart.isInfix.trans ⟨[quoteMark], [], by simpa using htrim⟩
  exact (closing_infix_of_undouble hs).trans (hinside.trans (Text.isInfix_trim t))

/-- The body of a comment in the form in which it is printed. -/
def canonicalBody (b : List Char) : List Char :=
  (Directive.ofBody b).canonical.body b

theorem closing_not_infix_canonicalBody {b : List Char} (h : ¬ commentClosing <:+: b) :
    ¬ commentClosing <:+: canonicalBody b := by
  have hbody : ¬ commentClosing <:+: (Directive.ofBody b).body b := by
    rcases Directive.body_ofBody b with hb | hb
    · rwa [hb]
    · have hkeywords : ∀ w ∈ Directive.keywords, ¬ commentClosing <:+: w := by decide
      exact hkeywords _ hb
  have htrim : ∀ (start e : List Char), '*' ∉ start → ¬ commentClosing <:+: start ++ e →
      ¬ commentClosing <:+: start ++ trim e := by
    intro start e hstart he
    rw [closing_infix_append_of_star_notMem hstart] at he ⊢
    exact fun hclosing => he (hclosing.trans (Text.isInfix_trim e))
  rw [canonicalBody]
  cases hd : Directive.ofBody b with
  | ifMark e => rw [hd] at hbody; exact htrim _ e (by decide) hbody
  | forMark e => rw [hd] at hbody; exact htrim _ e (by decide) hbody
  | bind e => rw [hd] at hbody; exact htrim [] e (by decide) hbody
  | embedded mode e =>
      rw [hd] at hbody
      exact htrim _ e (by cases mode <;> decide) hbody
  | nextMark t =>
      rw [hd] at hbody
      cases hq : Source.quoted? t with
      | none => rw [Directive.canonical, hq]; exact hbody
      | some s =>
          rw [Directive.canonical, hq]
          have hstar : '*' ∉ "NEXT ".toList := by decide
          have ht : ¬ commentClosing <:+: "NEXT ".toList ++ t := hbody
          change ¬ commentClosing <:+: "NEXT ".toList ++ quote s
          rw [closing_infix_append_of_star_notMem hstar] at ht ⊢
          rw [closing_infix_quote_iff]
          exact fun hs => ht (closing_infix_of_quoted?_eq_some hq hs)
  | elseMark | endMark | beginMark | firstMark | lastMark | plain =>
      rw [hd] at hbody
      exact hbody

theorem quoted?_quote (s : List Char) : Source.quoted? (quote s) = some s := by
  have hend : Text.dropEnd? [quoteMark] (Text.double s ++ [quoteMark]) = some (Text.double s) := by
    rw [Text.dropEnd?, List.reverse_append, Text.dropStart?_append]
    simp
  rw [Source.quoted?, Text.trim_quote, quote, Text.dropStart?, if_pos rfl, Text.dropStart?,
    Option.bind_some, hend, Option.map_some, Text.undouble_double]

/-- A path starts with a letter, an underscore or a number sign, behind blanks. -/
theorem exists_cons_of_pathOfText_eq_ok {s : List Char} {p : Path} (h : Path.ofText s = .ok p) :
    ∃ c t, trimStart s = c :: t ∧ (Text.startsIdentifier c = true ∨ c = '#') := by
  obtain ⟨f, fs, hf⟩ := List.exists_cons_of_ne_nil (Text.fields_ne_nil '.' s)
  obtain ⟨r, rfl⟩ := Text.isPrefix_of_fields_eq_cons hf
  rw [Path.ofText, hf] at h
  obtain ⟨root, hroot, -⟩ := Except.bind_eq_ok_iff.1 h
  obtain ⟨c, t, ht, hc⟩ : ∃ c t, trim f = c :: t ∧ (Text.startsIdentifier c = true ∨ c = '#') := by
    rw [Path.rootOfText] at hroot
    split at hroot
    next hloop => exact ⟨'#', _, hloop, .inr rfl⟩
    next =>
      split at hroot
      next hid =>
        cases ht : trim f with
        | nil => rw [ht] at hid; cases hid
        | cons c t =>
            rw [ht, Text.isIdentifier_cons, Bool.and_eq_true] at hid
            exact ⟨c, t, rfl, .inl hid.1⟩
      next => cases hroot
  obtain ⟨r', hr'⟩ := Text.exists_append_of_trim_eq_cons ht
  exact ⟨c, _, Text.trimStart_append_of_eq_cons hr' r, hc⟩

namespace Source

variable {s : Source} {inLoop : Bool} {p : Place}

/-- What is in front of the options starts like the whole expression. -/
theorem exists_cons_of_readPath_eq_ok {e : List Char} {path : Path} {options : Options}
    (h : s.readPath inLoop p e = .ok (path, options)) :
    ∃ c t, trim e = c :: t ∧ (Text.startsIdentifier c = true ∨ c = '#') := by
  obtain ⟨front, hsplit, hpath, -⟩ := readPath_eq_ok_iff.1 h
  obtain ⟨c, t, ht, hc⟩ := exists_cons_of_pathOfText_eq_ok hpath
  have hstart : ∃ t, trimStart e = c :: t := by
    rw [Options.split, String.toList_ofList] at hsplit
    cases hcut : Text.cutAtChar? ':' e with
    | none =>
        rw [hcut] at hsplit
        cases hsplit
        rw [trim, Text.trimStart_trimEnd, Text.trimStart_trimStart] at ht
        obtain ⟨r, hr⟩ := Text.exists_append_of_trim_eq_cons ht
        exact ⟨_, hr⟩
    | some cut =>
        obtain ⟨a, b⟩ := cut
        obtain ⟨-, rfl⟩ := Text.eq_append_of_cutAtChar?_eq_some hcut
        rw [hcut] at hsplit
        obtain ⟨o, -, hsplit⟩ := Except.bind_eq_ok_iff.1 hsplit
        split at hsplit
        next => cases hsplit
        next =>
          cases hsplit
          rw [trim, Text.trimStart_trimEnd, Text.trimStart_trimStart] at ht
          obtain ⟨r, hr⟩ := Text.exists_append_of_trim_eq_cons ht
          exact ⟨_, Text.trimStart_append_of_eq_cons hr _⟩
  obtain ⟨t, ht⟩ := hstart
  have hblank : isBlank c = false := by
    rcases hc with hc | rfl
    · exact Text.isBlank_eq_false_of_startsIdentifier hc
    · decide
  exact ⟨c, _, by rw [trim, ht, Text.trimEnd_cons, if_neg (by simp [hblank])], hc⟩

/-- A path is read from the trimmed expression as from the expression, wherever it stands. -/
theorem readPath_trim {e : List Char} {path : Path} {options : Options}
    (h : s.readPath inLoop p e = .ok (path, options)) (s' : Source) (p' : Place) :
    s'.readPath inLoop p' (trim e) = .ok (path, options) := by
  rw [readPath_eq_ok_iff] at h ⊢
  obtain ⟨front, hsplit, h⟩ := h
  exact ⟨front, Options.split_trim hsplit, h⟩

theorem readVariable_trim {e testValue : List Char} {v : Variable}
    (h : s.readVariable inLoop p e testValue = .ok v) (s' : Source) (p' : Place) :
    s'.readVariable inLoop p' (trim e) testValue = .ok v := by
  rw [readVariable_eq_ok_iff] at h ⊢
  rw [Text.trim_trim]
  exact ⟨readPath_trim h.1 s' p', h.2⟩

theorem readCondition_trim {e : List Char} {c : Condition}
    (h : s.readCondition inLoop e = .ok c) (s' : Source) :
    s'.readCondition inLoop (trim e) = .ok c := by
  rw [readCondition_eq_ok_iff] at h ⊢
  rwa [Condition.ofText_trim]

/-- The canonical body of a comment that can be read asks for the canonical directive. -/
theorem ofBody_canonicalBody {testValue : List Char} {i : Item}
    (h : s.item inLoop p testValue = .ok i) :
    Directive.ofBody (canonicalBody p.body) = (Directive.ofBody p.body).canonical := by
  rw [item_eq_ok_iff] at h
  rw [canonicalBody]
  generalize hd : Directive.ofBody p.body = d at h ⊢
  cases h with
  | ifMark => exact Directive.ofBody_ifMark _
  | forMark => exact Directive.ofBody_forMark _
  | nextMark => exact Directive.ofBody_nextMark _
  | bind =>
      obtain ⟨rfl, hbind⟩ := Directive.ofBody_trim_of_eq_bind hd
      exact hbind
  | embedded hv =>
      obtain ⟨c, t, ht, hc⟩ := exists_cons_of_readPath_eq_ok (readVariable_eq_ok_iff.1 hv).1
      have hdollar : c ≠ '$' := by
        rintro rfl
        exact absurd hc (by decide)
      have hpoint : c ≠ '.' := by
        rintro rfl
        exact absurd hc (by decide)
      change Directive.ofBody (_ ++ trim _) = .embedded _ (trim _)
      rw [ht]
      exact Directive.ofBody_embedded hdollar hpoint t
  | plain => exact hd
  | elseMark => exact (by decide : Directive.ofBody "ELSE".toList = .elseMark)
  | endMark => exact (by decide : Directive.ofBody "END".toList = .endMark)
  | beginMark => exact (by decide : Directive.ofBody "BEGIN".toList = .beginMark)
  | firstMark => exact (by decide : Directive.ofBody "FIRST".toList = .firstMark)
  | lastMark => exact (by decide : Directive.ofBody "LAST".toList = .lastMark)

/-- A comment in its canonical form says what it says in any other form, wherever it stands. -/
theorem item_canonicalBody {testValue : List Char} {i : Item}
    (h : s.item inLoop p testValue = .ok i) (s' : Source) (start : Text.Position) :
    s'.item inLoop ⟨canonicalBody p.body, start⟩ testValue = .ok i := by
  have hbody := ofBody_canonicalBody h
  rw [item_eq_ok_iff] at h ⊢
  rw [hbody]
  generalize hd : Directive.ofBody p.body = d at h ⊢
  cases h with
  | ifMark hcondition => exact .ifMark (readCondition_trim hcondition s')
  | @forMark e path options hpath hlike =>
      have hsays : s'.Says inLoop ⟨canonicalBody p.body, start⟩ testValue (.forMark (trim e)) _ :=
        .forMark (readPath_trim hpath s' _) hlike
      rwa [Text.trim_trim] at hsays
  | nextMark hloop hquoted =>
      rw [Directive.canonical, hquoted]
      exact .nextMark hloop (quoted?_quote _)
  | bind hv => exact .bind (readVariable_trim hv s' _)
  | embedded hv => exact .embedded (readVariable_trim hv s' _)
  | plain =>
      have hsays : s'.Says inLoop ⟨canonicalBody p.body, start⟩ testValue .plain _ := .plain
      rw [canonicalBody, hd] at hsays
      rw [canonicalBody, hd]
      exact hsays
  | firstMark hloop => exact .firstMark hloop
  | lastMark hloop => exact .lastMark hloop
  | elseMark => exact .elseMark
  | endMark => exact .endMark
  | beginMark => exact .beginMark

end Source

end Template

end SqlTemplate
