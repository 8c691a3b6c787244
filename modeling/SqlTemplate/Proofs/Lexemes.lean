import Mathlib
import SqlTemplate.Template.Lexeme

/-!
# How a text is cut into lexemes

`Cursor.Lexes` says by rules which lexemes a text is cut into, one rule for each token at the
start of the text. `Lexeme.readAll` finds them (`Cursor.lexes_readAll`) and there are no others
(`Cursor.Lexes.readAll_eq`), so what holds of all lexemes of a text is proved by induction on
the rules.
-/

namespace SqlTemplate.Template

namespace Cursor

/-- Cuts off the test value that the directive takes, if it takes one. -/
def takeTestValue (c : Cursor) (d : Directive) : List Char × Cursor :=
  match d.extent? with
  | none => ([], c)
  | some extent => c.testValue extent

theorem takeTestValue_of_extent?_eq_none {d : Directive} (h : d.extent? = none) (c : Cursor) :
    c.takeTestValue d = ([], c) := by
  rw [takeTestValue, h]

theorem takeTestValue_append (c : Cursor) (d : Directive) :
    (c.takeTestValue d).1 ++ (c.takeTestValue d).2.rest = c.rest := by
  rw [takeTestValue]
  split
  next => rfl
  next extent _ => exact testValue_append extent c.rest

theorem length_rest_takeTestValue_le (c : Cursor) (d : Directive) :
    (c.takeTestValue d).2.rest.length ≤ c.rest.length := by
  rw [← takeTestValue_append c d, List.length_append]
  exact Nat.le_add_left _ _

/-- The rest of a text is cut into the lexemes, up to the fault that ends them if one does. -/
inductive Lexes : Cursor → List Lexeme → Option ErrorKind → Prop where
  | fault {c kind} (hnext : c.next = .error kind) : Lexes c [] (some kind)
  | stop {c c'} (hnext : c.next = .ok (.stop, c')) : Lexes c [] none
  | text {c s c' ls fault} (hnext : c.next = .ok (.text s, c')) (hrest : Lexes c' ls fault) :
      Lexes c (.text s :: ls) fault
  | comment {c body c' ls fault} (hnext : c.next = .ok (.comment body, c'))
      (hrest : Lexes (c'.takeTestValue (.ofBody body.toList)).2 ls fault) :
      Lexes c
        (.comment body.toList c.position (c'.takeTestValue (.ofBody body.toList)).1 :: ls) fault

theorem lexes_readAll (c : Cursor) : c.Lexes (Lexeme.readAll c).1 (Lexeme.readAll c).2 := by
  fun_induction Lexeme.readAll c with
  | case1 c kind hnext => exact .fault hnext
  | case2 c c' hnext => exact .stop hnext
  | case3 c s c' hnext _ lexemes fault hread ih =>
      rw [hread] at ih
      exact .text hnext ih
  | case4 c body c' hnext _ hextent lexemes fault hread ih =>
      rw [hread] at ih
      have htake := takeTestValue_of_extent?_eq_none hextent c'
      have hlexes : c.Lexes (_ :: lexemes) fault := .comment hnext (by rw [htake]; exact ih)
      rwa [htake] at hlexes
  | case5 c body c' hnext _ extent hextent _ lexemes fault hread ih =>
      rw [hread] at ih
      have htake : c'.takeTestValue (.ofBody body.toList) = c'.testValue extent := by
        rw [takeTestValue, hextent]
      have hlexes : c.Lexes (_ :: lexemes) fault := .comment hnext (by rw [htake]; exact ih)
      rwa [htake] at hlexes

/-- The next token decides which rule there is. -/
theorem Lexes.unique {c : Cursor} {ls ks : List Lexeme} {fault fault' : Option ErrorKind}
    (h : c.Lexes ls fault) (h' : c.Lexes ks fault') : ks = ls ∧ fault' = fault := by
  induction h generalizing ks fault' with
  | fault hnext =>
      cases h' with
      | fault hnext' =>
          cases hnext.symm.trans hnext'
          exact ⟨rfl, rfl⟩
      | stop hnext' | text hnext' | comment hnext' => cases hnext.symm.trans hnext'
  | stop hnext =>
      cases h' with
      | stop => exact ⟨rfl, rfl⟩
      | fault hnext' | text hnext' | comment hnext' => cases hnext.symm.trans hnext'
  | text hnext _ ih =>
      cases h' with
      | text hnext' hrest =>
          cases hnext.symm.trans hnext'
          obtain ⟨rfl, rfl⟩ := ih hrest
          exact ⟨rfl, rfl⟩
      | fault hnext' | stop hnext' | comment hnext' => cases hnext.symm.trans hnext'
  | comment hnext _ ih =>
      cases h' with
      | comment hnext' hrest =>
          cases hnext.symm.trans hnext'
          obtain ⟨rfl, rfl⟩ := ih hrest
          exact ⟨rfl, rfl⟩
      | fault hnext' | stop hnext' | text hnext' => cases hnext.symm.trans hnext'

theorem Lexes.readAll_eq {c : Cursor} {ls : List Lexeme} {fault : Option ErrorKind}
    (h : c.Lexes ls fault) : Lexeme.readAll c = (ls, fault) := by
  obtain ⟨hls, hfault⟩ := h.unique (lexes_readAll c)
  exact Prod.ext hls hfault

end Cursor

/-- Whether there is a test value only where the comment takes one. -/
def Lexeme.Fits : Lexeme → Prop
  | .text _ => True
  | .comment body _ testValue => (Directive.ofBody body).extent? = none → testValue = []

theorem Cursor.Lexes.fits {c : Cursor} {ls : List Lexeme} {fault : Option ErrorKind}
    (h : c.Lexes ls fault) : ∀ l ∈ ls, l.Fits := by
  induction h with
  | fault _ => exact fun l hl => nomatch hl
  | stop _ => exact fun l hl => nomatch hl
  | text _ _ ih =>
      intro l hl
      rcases List.mem_cons.1 hl with rfl | hl
      · trivial
      · exact ih l hl
  | @comment _ body c' _ _ _ _ ih =>
      intro l hl
      rcases List.mem_cons.1 hl with rfl | hl
      · intro hextent
        rw [takeTestValue_of_extent?_eq_none hextent]
      · exact ih l hl

end SqlTemplate.Template
