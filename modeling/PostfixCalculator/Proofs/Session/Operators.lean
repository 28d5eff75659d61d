import PostfixCalculator.Proofs.Reduction.Operators
import PostfixCalculator.Proofs.Session.Answers

/-!
# Sessions with fewer operators

A session that has fewer operators enabled can refuse a line that another would carry out, but it
never answers it differently.  It refuses a line as soon as the candidate holds an operator that it
lacks, before anything is computed, so neither a division by zero nor a missing operand can come
first.

## Main definitions

* `Session.withOperators` — a session with other operators enabled.
* `SameAnswer` — the same answer to a line, with the same stack after it.

## Main results

* `submitWords_withOperators` — operators that are not in a candidate play no part in its answer.
* `submitWords_of_lacking` — an operator that the session lacks makes a candidate invalid.
* `submit_fewer_operators` — **fewer operators refuse lines, and never change an answer.**
-/

namespace PostfixCalculator.Session

/-- The session with other operators enabled. -/
def withOperators (session : Session) (ops : List Operator) : Session :=
  ⟨session.engine.withOperators ops, session.stack⟩

@[simp] theorem stack_withOperators (session : Session) (ops : List Operator) :
    (session.withOperators ops).stack = session.stack := rfl

@[simp] theorem engine_withOperators (session : Session) (ops : List Operator) :
    (session.withOperators ops).engine = session.engine.withOperators ops := rfl

variable {session : Session} {ops : List Operator} {words : List String}

theorem settle_withOperators (session : Session) (ops : List Operator)
    (outcome : Except CalcError (List String)) :
    (session.withOperators ops).settle outcome =
      ((session.settle outcome).1, (session.settle outcome).2.withOperators ops) := by
  cases outcome with
  | error e => cases e <;> rfl
  | ok reduced =>
    simp only [settle]
    split <;> rfl

/-- **Operators that are not in a candidate play no part in its answer.** -/
theorem submitWords_withOperators
    (h : AgreeOn session.engine.operators ops (session.stack ++ words)) :
    (session.withOperators ops).submitWords words =
      ((session.submitWords words).1, (session.submitWords words).2.withOperators ops) := by
  simp only [submitWords, stack_withOperators, engine_withOperators,
    Engine.operators_withOperators, ← h.isAcceptable_eq, h.reduce_eq, settle_withOperators]
  split
  · rfl
  · split
    · rfl
    · split <;> rfl

/-- An operator that the session lacks makes a candidate invalid, whatever else is in it. -/
theorem submitWords_of_lacking {op : Operator} (hstay : asksToQuit words = false)
    (hlacks : op ∉ session.engine.operators) (hop : op.symbol ∈ session.stack ++ words) :
    session.submitWords words = (.invalidEntry, session) := by
  apply submitWords_invalidEntry hstay
  rw [← Bool.not_eq_true]
  intro hentry
  exact hlacks (mem_of_isAcceptable hentry hop)

/-- A candidate that is not refused holds enabled operators only. -/
theorem mem_operators_of_submitWords (hstay : asksToQuit words = false)
    (h : (session.submitWords words).1 ≠ .invalidEntry) {op : Operator}
    (hop : op.symbol ∈ session.stack ++ words) : op ∈ session.engine.operators := by
  by_contra hlacks
  rw [submitWords_of_lacking hstay hlacks hop] at h
  exact h rfl

/-- A line that is not refused has the same answer with more operators enabled. -/
theorem submitWords_more_operators (hsub : ∀ op ∈ session.engine.operators, op ∈ ops)
    (h : (session.submitWords words).1 ≠ .invalidEntry) :
    (session.withOperators ops).submitWords words =
      ((session.submitWords words).1, (session.submitWords words).2.withOperators ops) := by
  cases hstay : asksToQuit words with
  | true =>
    rw [submitWords_quit hstay, submitWords_quit hstay]
  | false =>
    apply submitWords_withOperators
    intro op hop
    exact ⟨hsub op, fun _ => mem_operators_of_submitWords hstay h hop⟩

/-- Sessions that have the same operators enabled stay alike, whatever calls are made. -/
theorem perform_withOperators (hsame : ∀ op, op ∈ session.engine.operators ↔ op ∈ ops)
    (commands : List Command) :
    (session.withOperators ops).perform commands =
      (session.perform commands).withOperators ops := by
  induction commands generalizing session with
  | nil => rfl
  | cons command commands ih =>
    have hstep : (session.withOperators ops).step command =
        (session.step command).withOperators ops := by
      cases command with
      | line text =>
        exact congrArg Prod.snd (submitWords_withOperators fun op _ => hsame op)
      | clear => rfl
    have hengine : (session.step command).engine = session.engine :=
      engine_perform session [command]
    show ((session.withOperators ops).step command).perform commands =
      ((session.step command).perform commands).withOperators ops
    rw [hstep]
    apply ih
    rwa [hengine]

/-- The answers are the same, and so are the stacks after them. -/
def SameAnswer (outcome outcome' : Response × Session) : Prop :=
  outcome.1 = outcome'.1 ∧ outcome.2.stack = outcome'.2.stack

theorem sameAnswer_withOperators {outcome outcome' : Response × Session}
    (h : outcome = (outcome'.1, outcome'.2.withOperators ops)) : SameAnswer outcome outcome' := by
  rw [h]
  exact ⟨rfl, rfl⟩

/-- **Fewer operators refuse lines, and never change an answer.**  Let two sessions differ in their
operators alone, all those of the one being enabled in the other.  Unless the one refuses a line as
invalid, the other answers it alike and is left with the same stack.  They also agree on every line
whose candidate holds no operator that the one lacks; and where a candidate holds such an operator,
the one refuses it and keeps its stack.  If both have the same operators, in any order and however
often, they agree on every line after any calls. -/
theorem submit_fewer_operators (config : Config) (ops : List Operator)
    (hsub : ∀ op ∈ config.operators, op ∈ ops) (stack : List String) :
    let session : Session := ⟨Engine.ofConfig config, stack⟩
    let session' : Session := ⟨Engine.ofConfig { config with operators := ops }, stack⟩
    (∀ line,
      let candidate := stack ++ Text.words line
      ((session.submit line).1 ≠ .invalidEntry →
        SameAnswer (session'.submit line) (session.submit line)) ∧
      ((∀ op ∈ ops, op ∉ config.operators → op.symbol ∉ candidate) →
        SameAnswer (session'.submit line) (session.submit line)) ∧
      (asksToQuit (Text.words line) = false →
        (∃ op ∈ ops, op ∉ config.operators ∧ op.symbol ∈ candidate) →
        session.submit line = (.invalidEntry, session))) ∧
    ((∀ op ∈ ops, op ∈ config.operators) → ∀ commands line,
      (session'.perform commands).stack = (session.perform commands).stack ∧
        SameAnswer ((session'.perform commands).submit line)
          ((session.perform commands).submit line)) := by
  intro session session'
  have hwith : session' = session.withOperators ops := rfl
  rw [hwith]
  refine ⟨fun line => ⟨fun hvalid => ?_, fun hnone => ?_, ?_⟩, fun hsup commands line => ?_⟩
  · exact sameAnswer_withOperators (submitWords_more_operators hsub hvalid)
  · -- an operator of the candidate that only the other session had would be one that is lacked
    apply sameAnswer_withOperators (submitWords_withOperators _)
    intro op hop
    refine ⟨hsub op, fun hmem => ?_⟩
    by_contra hlacks
    exact hnone op hmem hlacks hop
  · rintro hstay ⟨op, -, hlacks, hop⟩
    exact submitWords_of_lacking hstay hlacks hop
  · have hiff : ∀ op, op ∈ session.engine.operators ↔ op ∈ ops := fun op => ⟨hsub op, hsup op⟩
    rw [perform_withOperators hiff]
    refine ⟨rfl, sameAnswer_withOperators (submitWords_withOperators fun op _ => ?_)⟩
    rw [engine_perform]
    exact hiff op

/-- Sums alone, and divisions besides: a sum and a sum that lacks an operand are answered alike, and
so is a word that is no operator; a division by zero is refused before it is come to.  Sums listed
twice are sums. -/
theorem submit_fewer_operators_sum :
    let session : Session := ⟨Engine.ofConfig { operators := [.plus] }, ["1.5"]⟩
    let session' : Session := ⟨Engine.ofConfig { operators := [.divide, .plus] }, ["1.5"]⟩
    let session'' : Session := ⟨Engine.ofConfig { operators := [.plus, .plus] }, ["1.5"]⟩
    (∀ op ∈ [Operator.plus], op ∈ [Operator.divide, .plus]) ∧
      SameAnswer (session'.submit "2 + +") (session.submit "2 + +") ∧
      SameAnswer (session'.submit "2 %") (session.submit "2 %") ∧
      session.submit "0 / +" = (.invalidEntry, session) ∧
      SameAnswer ((session''.perform [.line "2 +"]).submit "3 +")
        ((session.perform [.line "2 +"]).submit "3 +") := by
  intro session session' session''
  have hsub : ∀ op ∈ [Operator.plus], op ∈ [Operator.divide, .plus] := by decide
  have hlines := (submit_fewer_operators { operators := [.plus] } [.divide, .plus] hsub ["1.5"]).1
  obtain ⟨hvalid, -, -⟩ := hlines "2 + +"
  obtain ⟨-, hnone, -⟩ := hlines "2 %"
  obtain ⟨-, -, hrefused⟩ := hlines "0 / +"
  obtain ⟨-, htwice⟩ :=
    submit_fewer_operators { operators := [.plus] } [.plus, .plus] (by decide) ["1.5"]
  exact ⟨hsub, hvalid (by decide +kernel), hnone (by decide +kernel),
    hrefused (by decide +kernel) (by decide +kernel), (htwice (by decide) _ _).2⟩

end PostfixCalculator.Session
