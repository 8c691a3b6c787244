import Mathlib
import SqlTemplate.Proofs.Execution
import SqlTemplate.Proofs.Lexemes

/-!
# What a failed evaluation leaves

An evaluation that fails has come to a node that fails where it stands (`Breaks`). It leaves the
context in which that node was begun, with all that was added in front of it and nothing that the
node has added itself (`evaluate_eq_some_iff`). What is executed in between, the parts of conditions
and the turns of loops, adds to the context as it goes on (`Begins`).

A variable or a block is not a node of this kind: what comes of it is added all at once. So
where it fails the context is left as it was, however much of a block or of an embedded text had
been evaluated by then (`evaluate_of_isAtomic`).
-/

namespace SqlTemplate

open Template (Node readNodes embeddedArguments)

/-- The node adds all that it gives, or nothing. -/
inductive Template.Node.IsAtomic : Node → Prop where
  | bind (v : Template.Variable) : IsAtomic (.bind v)
  | embedded (v : Template.Variable) (mode : Template.EmbeddedMode) : IsAtomic (.embedded v mode)
  | block (body : List Node) : IsAtomic (.block body)

/-- The node fails with the error, at once or in a context of its own. -/
inductive Breaks (c : Context) (loops : List Loop) : Node → TemplateError → Prop where
  | raised {n e} (h : Scene.Raises ⟨c.environment, loops, [n]⟩ e) : Breaks c loops n e
  | block {body inner e} (h : c.child.evaluate loops body = (inner, some e)) :
      Breaks c loops (.block body) e
  | text {v mode r text ns inner e} (hembeds : v.Embeds c.environment loops r text)
      (hdepth : 0 < c.environment.remainingDepth)
      (hread : readNodes text (!loops.isEmpty) = .ok ns)
      (h : (c.nested (embeddedArguments v r) text).evaluate loops ns = (inner, some e)) :
      Breaks c loops (.embedded v mode) e

/-- The execution of the task from the first context begins the node in the second one. Both
are one context to which more and more is added, not one in the other. -/
inductive Begins : Context → List Loop → Task → Context → List Loop → Node → Prop where
  | here {c loops n} : Begins c loops (.node n) c loops n
  | part {c loops n condition ns d loops' m} (h : Node.Takes c.environment loops n condition ns)
      (hns : Begins c loops (.nodes ns) d loops' m) : Begins c loops (.node n) d loops' m
  | goesOn {c loops n ns d loops' m} (h : Node.GoesOn loops n ns)
      (hns : Begins c loops (.nodes ns) d loops' m) : Begins c loops (.node n) d loops' m
  | loop {c loops expression path options body r elements d loops' m}
      (hr : path.resolve expression c.environment loops = .ok r)
      (htarget : r.target = .list elements)
      (hturns : Begins c loops
        (.turns (Loop.turns ⟨expression, elements, 0, options.like⟩) body) d loops' m) :
      Begins c loops (.node (.forBlock expression path options body)) d loops' m
  | head {c loops n ns d loops' m} (hn : Begins c loops (.node n) d loops' m) :
      Begins c loops (.nodes (n :: ns)) d loops' m
  | tail {c loops n ns c' log d loops' m} (hn : Executes c loops (.node n) c' none log)
      (hns : Begins c' loops (.nodes ns) d loops' m) : Begins c loops (.nodes (n :: ns)) d loops' m
  | turn {c loops l ls body d loops' m} (hl : Begins c (l :: loops) (.nodes body) d loops' m) :
      Begins c loops (.turns (l :: ls) body) d loops' m
  | laterTurn {c loops l ls body c' log d loops' m}
      (hl : Executes c (l :: loops) (.nodes body) c' none log)
      (hls : Begins c' loops (.turns ls body) d loops' m) :
      Begins c loops (.turns (l :: ls) body) d loops' m

variable {c c' d : Context} {loops loops' : List Loop} {task : Task} {n : Node} {e : TemplateError}

namespace Breaks

/-- A node that fails leaves the context in which it was begun. -/
theorem exists_executes (h : Breaks c loops n e) :
    ∃ log, Executes c loops (.node n) c (some e) log := by
  cases h with
  | raised h => exact ⟨_, .raised h⟩
  | block h =>
      obtain ⟨log, hbody⟩ := executes_iff.2 h
      exact ⟨_, .blockFailed hbody⟩
  | text hembeds hdepth hread h =>
      obtain ⟨log, hns⟩ := executes_iff.2 h
      exact ⟨_, .embeddedFailed hembeds hdepth hread hns⟩

end Breaks

namespace Begins

theorem exists_executes (h : Begins c loops task d loops' n) (hn : Breaks d loops' n e) :
    ∃ log, Executes c loops task d (some e) log := by
  induction h with
  | here => exact hn.exists_executes
  | part h _ ih =>
      obtain ⟨log, hns⟩ := ih hn
      exact ⟨_, .partFailed h hns⟩
  | goesOn h _ ih =>
      obtain ⟨log, hns⟩ := ih hn
      exact ⟨_, .goesOn h hns⟩
  | loop hr htarget _ ih =>
      obtain ⟨log, hturns⟩ := ih hn
      exact ⟨_, .loop hr htarget hturns⟩
  | head _ ih =>
      obtain ⟨log, hn⟩ := ih hn
      exact ⟨_, .consFailed hn⟩
  | tail hnode _ ih =>
      obtain ⟨log, hns⟩ := ih hn
      exact ⟨_, .cons hnode hns⟩
  | turn _ ih =>
      obtain ⟨log, hl⟩ := ih hn
      exact ⟨_, .turnFailed hl⟩
  | laterTurn hl _ ih =>
      obtain ⟨log, hls⟩ := ih hn
      exact ⟨_, .turn hl hls⟩

/-- A variable or a block is begun where it stands, and nothing else is begun in its context. -/
theorem eq_of_isAtomic (h : Begins c loops (.nodes [n]) d loops' n') (hn : n.IsAtomic) :
    d = c ∧ loops' = loops ∧ n' = n := by
  cases h with
  | head h =>
      cases hn <;> cases h with
      | here => exact ⟨rfl, rfl, rfl⟩
      | part h => cases h
      | goesOn h => cases h
  | tail _ h => cases h

end Begins

/-- A failed execution leaves the context in which the node that fails was begun. -/
theorem Executes.exists_begins {log : List Happening} (h : Executes c loops task c' (some e) log) :
    ∃ loops' n, Begins c loops task c' loops' n ∧ Breaks c' loops' n e := by
  generalize hfailure : some e = failure at h
  induction h with
  | text | given | passed | part | block | blockLeft | embedded | nil | noTurn => cases hfailure
  | raised h =>
      cases hfailure
      exact ⟨_, _, .here, .raised h⟩
  | partFailed h _ ih =>
      obtain ⟨loops', n, hbegins, hn⟩ := ih hfailure
      exact ⟨_, _, .part h hbegins, hn⟩
  | goesOn h _ ih =>
      obtain ⟨loops', n, hbegins, hn⟩ := ih hfailure
      exact ⟨_, _, .goesOn h hbegins, hn⟩
  | loop hr htarget _ ih =>
      obtain ⟨loops', n, hbegins, hn⟩ := ih hfailure
      exact ⟨_, _, .loop hr htarget hbegins, hn⟩
  | blockFailed hbody =>
      cases hfailure
      exact ⟨_, _, .here, .block (executes_iff.1 ⟨_, hbody⟩)⟩
  | embeddedFailed hembeds hdepth hread hns =>
      cases hfailure
      exact ⟨_, _, .here, .text hembeds hdepth hread (executes_iff.1 ⟨_, hns⟩)⟩
  | cons hnode _ _ ih =>
      obtain ⟨loops', n, hbegins, hn⟩ := ih hfailure
      exact ⟨_, _, .tail hnode hbegins, hn⟩
  | consFailed _ ih =>
      obtain ⟨loops', n, hbegins, hn⟩ := ih hfailure
      exact ⟨_, _, .head hbegins, hn⟩
  | turn hl _ _ ih =>
      obtain ⟨loops', n, hbegins, hn⟩ := ih hfailure
      exact ⟨_, _, .laterTurn hl hbegins, hn⟩
  | turnFailed _ ih =>
      obtain ⟨loops', n, hbegins, hn⟩ := ih hfailure
      exact ⟨_, _, .turn hbegins, hn⟩

namespace Context

/-- An evaluation fails if and only if it comes to a node that does, and it leaves the context
in which that node was begun. -/
theorem evaluate_eq_some_iff {ns : List Node} :
    c.evaluate loops ns = (c', some e) ↔
      ∃ loops' n, Begins c loops (.nodes ns) c' loops' n ∧ Breaks c' loops' n e := by
  rw [← executes_iff]
  constructor
  · rintro ⟨log, h⟩
    exact h.exists_begins
  · rintro ⟨loops', n, hbegins, hn⟩
    exact hbegins.exists_executes hn

/-- A variable or a block that fails leaves the context as it was: at once, or in a context of its
own in which much may have been added. -/
theorem evaluate_of_isAtomic (hn : n.IsAtomic) (c c' : Context) (loops : List Loop)
    (e : TemplateError) :
    c.evaluate loops [n] = (c', some e) ↔ c' = c ∧ Breaks c loops n e := by
  rw [evaluate_eq_some_iff]
  constructor
  · rintro ⟨loops', n', hbegins, hbreaks⟩
    obtain ⟨rfl, rfl, rfl⟩ := hbegins.eq_of_isAtomic hn
    exact ⟨rfl, hbreaks⟩
  · rintro ⟨rfl, hbreaks⟩
    exact ⟨loops, n, .head .here, hbreaks⟩

/-- A block has bound a value, and a block of an embedded text in it has added a text. -/
theorem evaluate_of_isAtomic_block :
    let text := "/*BEGIN*/b/*u*/0/*END*/"
    let c : Context :=
      ⟨⟨⟨[("x", .string "v"), ("t", .string text)], []⟩, {}, "", 1⟩, .ofSql "a ", false⟩
    let body : List Node := [.bind ⟨"x", ⟨.argument "x", []⟩, .none, "0"⟩,
      .embedded ⟨"t", ⟨.argument "t", []⟩, .none, "0"⟩ .normal]
    let e : TemplateError := ⟨.argumentNotFound "u", "u", none, text, "t=" ++ text⟩
    (Node.block body).IsAtomic ∧
      c.child.evaluate [] body = ((c.child.add ⟨"?", [.string "v"], [.string]⟩).setEnabled true,
        some e) ∧
      c.evaluate [] [.block body] = (c, some e) := by
  intro text c body e
  have hlexes : (Template.Cursor.ofText "/*BEGIN*/b/*u*/0/*END*/").Lexes _ none :=
    .comment rfl (.text rfl (.comment rfl (.comment rfl (.stop rfl))))
  have hread : readNodes "/*BEGIN*/b/*u*/0/*END*/" false =
      .ok [.block [.text "b", .bind ⟨"u", ⟨.argument "u", []⟩, .none, "0"⟩]] := by
    rw [Template.readNodes_eq_ok_iff, hlexes.readAll_eq]
    exact .block (o := .block) rfl (.text (.node rfl (.closing rfl))) (.stop rfl)
  let v : Template.Variable := ⟨"t", ⟨.argument "t", []⟩, .none, "0"⟩
  have hembeds : v.Embeds c.environment [] ⟨.string text, .string, .string text, .string, none⟩
      text := ⟨by cbv, by cbv, rfl⟩
  have hfails : Executes c.child [] (.nodes body)
      ((c.child.add ⟨"?", [.string "v"], [.string]⟩).setEnabled true) (some e) _ :=
    .cons (.given (.bound (by cbv))) (.consFailed (.embeddedFailed hembeds (by decide) hread
      (.consFailed (.blockFailed (.cons (.text (.text _))
        (.consFailed (.raised (.bound List.mem_cons_self (by cbv)))))))))
  have hbody : c.child.evaluate [] body =
      ((c.child.add ⟨"?", [.string "v"], [.string]⟩).setEnabled true, some e) :=
    executes_iff.1 ⟨_, hfails⟩
  exact ⟨.block body, hbody, (evaluate_of_isAtomic (.block body) c c [] e).2 ⟨rfl, .block hbody⟩⟩

end Context

end SqlTemplate
