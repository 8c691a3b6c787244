import Mathlib
import SqlTemplate.Proofs.Execution

/-!
# Blocks that are left out

A block is added if it counts in the end and left out if it does not. It counts if and only if a
variable has given something in it or a part of a condition was taken
(`Executes.enabled_eq`), however deep in loops and in other blocks. As long as nothing of the kind
has happened no value was bound (`Executes.values_eq`), so no value is lost with a block that is
left out (`Context.evaluate_block`).
-/

namespace SqlTemplate

open Template (Node Variable)

/-- Whether it makes the block count. -/
def Happening.counts : Happening → Bool
  | .opened _ => false
  | .given _ | .taken _ => true

namespace Executes

variable {c c' : Context} {loops : List Loop} {task : Task} {failure : Option TemplateError}
  {log : List Happening}

/-- After an execution without an error a context counts if and only if it did before or something
has happened that makes it count. -/
theorem enabled_eq (h : Executes c loops task c' failure log) (hfailure : failure = none) :
    c'.enabled = (c.enabled || log.any Happening.counts) := by
  induction h with
  | text => simp [Context.add]
  | given => simp [Context.setEnabled, Happening.counts]
  | raised | partFailed | blockFailed | embeddedFailed | consFailed | turnFailed => cases hfailure
  | passed | nil | noTurn => simp
  | part => simp [Context.setEnabled, Happening.counts]
  | goesOn _ _ ih => exact ih hfailure
  | loop _ _ _ ih => exact ih hfailure
  | block hbody hinner ih =>
      -- The block counts, and it did not when it was opened, so something has happened in it.
      rw [ih rfl] at hinner
      have hlog : List.any _ Happening.counts = true := hinner
      simp [Context.setEnabled, Happening.counts, hlog]
  | blockLeft hbody hinner ih =>
      rw [ih rfl] at hinner
      have hlog : List.any _ Happening.counts = false := hinner
      simp [Happening.counts, hlog]
  | embedded => simp [Context.setEnabled, Happening.counts]
  | cons hn hns ihn ihns => rw [ihns hfailure, ihn rfl, List.any_append, Bool.or_assoc]
  | turn hl hls ihl ihls => rw [ihls hfailure, ihl rfl, List.any_append, Bool.or_assoc]

/-- As long as nothing happens that makes a context count, no value is bound in it. -/
theorem values_eq (h : Executes c loops task c' failure log) (hfailure : failure = none)
    (hlog : log.any Happening.counts = false) :
    c'.added.values = c.added.values ∧ c'.added.types = c.added.types := by
  induction h with
  | text => simp [Context.add, BoundSql.ofSql]
  | given | part => cases hlog
  | raised | partFailed | blockFailed | embeddedFailed | consFailed | turnFailed => cases hfailure
  | passed | nil | noTurn | blockLeft => exact ⟨rfl, rfl⟩
  | goesOn _ _ ih => exact ih hfailure hlog
  | loop _ _ _ ih => exact ih hfailure hlog
  | block hbody hinner ih =>
      have hcounts := hbody.enabled_eq rfl
      rw [hinner] at hcounts
      have hany : List.any _ Happening.counts = true := hcounts.symm
      simp [Happening.counts, hany] at hlog
  | embedded => simp [Happening.counts] at hlog
  | cons hn hns ihn ihns =>
      rw [List.any_append, Bool.or_eq_false_iff] at hlog
      obtain ⟨hvalues, htypes⟩ := ihns hfailure hlog.2
      obtain ⟨hvalues', htypes'⟩ := ihn rfl hlog.1
      exact ⟨hvalues.trans hvalues', htypes.trans htypes'⟩
  | turn hl hls ihl ihls =>
      rw [List.any_append, Bool.or_eq_false_iff] at hlog
      obtain ⟨hvalues, htypes⟩ := ihls hfailure hlog.2
      obtain ⟨hvalues', htypes'⟩ := ihl rfl hlog.1
      exact ⟨hvalues.trans hvalues', htypes.trans htypes'⟩

/-- A block without an error is merged into the context if it counts, and dropped if not. -/
theorem block_cases {body : List Node}
    (h : Executes c loops (.nodes [.block body]) c' none log) :
    ∃ inner log', Executes c.child loops (.nodes body) inner none log' ∧
      (inner.enabled = true ∧ c' = (c.merge inner).setEnabled true ∨
        inner.enabled = false ∧ c' = c) := by
  cases h with
  | cons hn hns =>
      cases hns
      cases hn with
      | block hbody hinner => exact ⟨_, _, hbody, .inl ⟨hinner, rfl⟩⟩
      | blockLeft hbody hinner => exact ⟨_, _, hbody, .inr ⟨hinner, rfl⟩⟩
      | text h | given h | passed h | part h | goesOn h => cases h

end Executes

namespace Context

/-- A block without an error adds all that its nodes add in a context of their own if a variable has
given something there or a part of a condition was taken. Else it changes nothing, and what is
left out holds no value. -/
theorem evaluate_block {c c' : Context} {loops : List Loop} {body : List Node}
    (h : c.evaluate loops [.block body] = (c', none)) :
    ∃ inner, c.child.evaluate loops body = (inner, none) ∧
      (∃ log, Executes c.child loops (.nodes body) inner none log) ∧
      ∀ log, Executes c.child loops (.nodes body) inner none log →
        ((∃ a ∈ log, a.counts = true) →
            c' = ⟨c.environment, c.added ++ inner.added, true⟩) ∧
          ((∀ a ∈ log, a.counts = false) →
            c' = c ∧ inner.added.values = [] ∧ inner.added.types = []) := by
  obtain ⟨log, hblock⟩ := executes_iff.2 h
  obtain ⟨inner, log', hbody, hcases⟩ := hblock.block_cases
  refine ⟨inner, executes_iff.1 ⟨log', hbody⟩, ⟨log', hbody⟩, ?_⟩
  intro log hlog
  have hcounts : inner.enabled = log.any Happening.counts := hlog.enabled_eq rfl
  constructor
  · intro hsome
    rw [List.any_eq_true.2 hsome] at hcounts
    rcases hcases with ⟨-, rfl⟩ | ⟨hleft, -⟩
    · rfl
    · rw [hleft] at hcounts
      cases hcounts
  · intro hnone
    have hany : log.any Happening.counts = false := by simpa using hnone
    rw [hany] at hcounts
    rcases hcases with ⟨hkept, -⟩ | ⟨-, rfl⟩
    · rw [hkept] at hcounts
      cases hcounts
    · exact ⟨rfl, hlog.values_eq rfl hany⟩

/-- In the first block a condition in a loop in an inner block is taken; in the second one there
are texts only, and they are left out. -/
theorem evaluate_block_nested :
    let c : Context :=
      ⟨⟨⟨[("ids", .list [.null, .int32 7])], []⟩, {}, "", 0⟩, .ofSql "select", false⟩
    let id : Path := ⟨.loop, []⟩
    let kept : List Node := [
      .text " where ",
      .block [
        .forBlock "ids" ⟨.argument "ids", []⟩ .none [
          .ifBlock ⟨"#current != null", .and,
              [⟨"#current != null", .comparison (.path id) .ne .null⟩]⟩
            [.text "id = ", .bind ⟨"#current", id, .none, "0"⟩] none]]]
    let left : List Node := [.text " where ", .block [.text "id = 0"]]
    let c' : Context :=
      ⟨c.environment, ⟨"select where id = ?", [.int32 7], [.integer]⟩, true⟩
    (c.evaluate [] [.block kept] = (c', none) ∧
        ∃ inner log, Executes c.child [] (.nodes kept) inner none log ∧
          (∃ a ∈ log, a.counts = true) ∧ c'.added = c.added ++ inner.added) ∧
      (c.evaluate [] [.block left] = (c, none) ∧
        ∃ inner log, Executes c.child [] (.nodes left) inner none log ∧
          (∀ a ∈ log, a.counts = false) ∧ inner.added = .ofSql " where ") := by
  intro c id kept left c'
  have hkept : c.evaluate [] [.block kept] = (c', none) := by cbv
  have hleft : c.evaluate [] [.block left] = (c, none) := by cbv
  have hinner : c.child.evaluate [] left = (c.child.add (.ofSql " where "), none) := by cbv
  refine ⟨⟨hkept, ?_⟩, hleft, ?_⟩
  · obtain ⟨inner, -, ⟨log, hlog⟩, hall⟩ := evaluate_block hkept
    have hcounts : ∃ a ∈ log, a.counts = true := by
      by_contra hnone
      have hsame : c' = c := ((hall log hlog).2 (by simpa using hnone)).1
      cases congrArg Context.enabled hsame
    exact ⟨inner, log, hlog, hcounts, congrArg Context.added ((hall log hlog).1 hcounts)⟩
  · obtain ⟨inner, hbody, ⟨log, hlog⟩, hall⟩ := evaluate_block hleft
    have hcounts : ∀ a ∈ log, a.counts = false := by
      by_contra hsome
      have hadded : c = ⟨c.environment, c.added ++ inner.added, true⟩ :=
        (hall log hlog).1 (by simpa using hsome)
      cases congrArg Context.enabled hadded
    cases hbody.symm.trans hinner
    exact ⟨_, log, hlog, hcounts, rfl⟩

end Context

end SqlTemplate
