import PostfixCalculator.CommandLine.Program
import PostfixCalculator.Proofs.Config

/-!
# Starting a session

A run whose arguments ask for a session looks at the operators first and then at the precision.  If
neither is at fault, it holds a session with just what was asked for; otherwise it ends at once with
exit code one, and writes nothing to the standard output.

## Main definitions

* `Options.Starting` — what options come to.

## Main results

* `Options.start_starting` — options come to one of the outcomes described.
* `Options.exists_start_iff` — the options that start a session.
* `run_refuses_exactly` — **just the faulty options are refused, and the others are kept as they
  are.**
-/

namespace PostfixCalculator.CommandLine

namespace Options

variable {options : Options}

/-- What options come to: a session of the configuration that they spell out, or a fault. -/
inductive Starting (options : Options) : Except StartError Session → Prop
  /-- The operators to enable cannot be read. -/
  | operators {cause : ConfigError} (h : parseOperators options.operators = .error cause) :
    Starting options (.error (.operators cause))
  /-- More places are asked for than a result may keep. -/
  | precision {ops : List Operator} (h : parseOperators options.operators = .ok ops)
      (hlarge : maxPrecision < options.precision) :
    Starting options (.error (.configuration (.precisionTooLarge options.precision)))
  /-- Nothing is at fault. -/
  | session {ops : List Operator} (h : parseOperators options.operators = .ok ops)
      (hle : options.precision ≤ maxPrecision) :
    Starting options (.ok (Session.ofConfig ⟨options.precision, ops, options.backend⟩))

/-- **Options come to one of the outcomes described.** -/
theorem start_starting (options : Options) : options.Starting options.start := by
  unfold start
  rcases hparse : parseOperators options.operators with cause | ops
  · exact .operators hparse
  dsimp only
  unfold Config.validate
  by_cases hlarge : maxPrecision < options.precision
  · rw [if_pos hlarge]
    exact .precision hparse hlarge
  · rw [if_neg hlarge, if_neg (ne_nil_of_parseOperators hparse)]
    exact .session hparse (Nat.le_of_not_lt hlarge)

/-- Options start a session when their operators can be read and the precision is within bounds. -/
theorem exists_start_iff : (∃ session, options.start = .ok session) ↔
    (∃ ops, parseOperators options.operators = .ok ops) ∧ options.precision ≤ maxPrecision := by
  have hstarting := options.start_starting
  generalize options.start = result at hstarting ⊢
  cases hstarting with
  | operators h => simp [h]
  | precision h hlarge => simp [h, hlarge]
  | session h hle => simp [h, hle]

/-- The session that options start has all that they ask for. -/
theorem engine_of_start {session : Session} (h : options.start = .ok session) :
    session.engine.precision = options.precision ∧ session.engine.backend = options.backend ∧
      parseOperators options.operators = .ok session.engine.operators := by
  have hstarting := options.start_starting
  rw [h] at hstarting
  cases hstarting with
  | session hparse hle => exact ⟨Nat.min_eq_left hle, rfl, hparse⟩

/-- A fault of the operators is reported before one of the precision. -/
theorem start_eq_error {error : StartError} (h : options.start = .error error) :
    (∃ cause, parseOperators options.operators = .error cause ∧ error = .operators cause) ∨
    (∃ ops, parseOperators options.operators = .ok ops) ∧ maxPrecision < options.precision ∧
      error = .configuration (.precisionTooLarge options.precision) := by
  have hstarting := options.start_starting
  rw [h] at hstarting
  cases hstarting with
  | operators hparse => exact .inl ⟨_, hparse, rfl⟩
  | precision hparse hlarge => exact .inr ⟨⟨_, hparse⟩, hlarge, rfl⟩

end Options

/-- **Just the faulty options are refused, and the others are kept as they are.**  A text lists
operators when it has a character that is not blank and no such character but those of operators;
it is read as the distinct ones in the order of their first mention, and the list is read again from
its own text.  Otherwise the text is refused for the first character that is neither blank nor an
operator, or for having no character but blanks.  A run whose arguments ask for a session holds one
when the operators can be read and the precision is within bounds; the session has the precision,
the backend and the operators that were asked for.  Otherwise the run ends with exit code one and
nothing written to the standard output, for the operators if they are at fault and for the precision
if they are not. -/
theorem run_refuses_exactly :
    (∀ text : String,
      ((∃ ops, parseOperators text = .ok ops) ↔ visible text.toList ≠ [] ∧
        ∀ c ∈ visible text.toList, c ∈ ['+', '-', '*', '/']) ∧
      (∀ ops, parseOperators text = .ok ops →
        ops.map Operator.mark = (visible text.toList).eraseDups ∧
        parseOperators (Operator.listText ops) = .ok ops) ∧
      (∀ c, parseOperators text = .error (.unknownOperator c) ↔
        (visible text.toList).find? (· ∉ ['+', '-', '*', '/']) = some c) ∧
      (parseOperators text = .error .noOperator ↔ ∀ c ∈ text.toList, Text.isBlank c = true)) ∧
    ∀ (environment : Environment) (arguments : List String) (options : Options) (terminal : Bool)
      (input : List UInt8) (manual : Manual),
      Request.ofArguments environment arguments = .session options →
      ((∃ session, options.start = .ok session) ↔
        (∃ ops, parseOperators options.operators = .ok ops) ∧ options.precision ≤ maxPrecision) ∧
      (∀ session, options.start = .ok session →
        session.engine.precision = options.precision ∧ session.engine.backend = options.backend ∧
        parseOperators options.operators = .ok session.engine.operators ∧
        run environment arguments terminal input manual =
          .ofTranscript terminal (hold session terminal (!options.quiet) input)) ∧
      ∀ error, options.start = .error error →
        run environment arguments terminal input manual = ⟨1, "", error.text⟩ ∧
        ((∃ cause, parseOperators options.operators = .error cause ∧ error = .operators cause) ∨
          (∃ ops, parseOperators options.operators = .ok ops) ∧ maxPrecision < options.precision ∧
            error = .configuration (.precisionTooLarge options.precision)) := by
  constructor
  · intro text
    refine ⟨⟨?_, ?_⟩, fun ops hparse => ?_, fun c => parseOperators_eq_unknownOperator_iff, ?_⟩
    · rintro ⟨ops, hparse⟩
      obtain ⟨hne, hmarks, -⟩ := parseOperators_eq_ok_iff.mp hparse
      exact ⟨hne, hmarks⟩
    · rintro ⟨hne, hmarks⟩
      obtain ⟨ops, hparse, -⟩ := exists_parseOperators hne hmarks
      exact ⟨ops, hparse⟩
    · exact ⟨(parseOperators_eq_ok_iff.mp hparse).2.2, parseOperators_listText hparse⟩
    · rw [parseOperators_eq_noOperator_iff, visible, List.filter_eq_nil_iff]
      simp
  · intro environment arguments options terminal input manual hrequest
    refine ⟨Options.exists_start_iff, fun session hstart => ?_, fun error hstart => ⟨?_, ?_⟩⟩
    · obtain ⟨hprecision, hbackend, hops⟩ := Options.engine_of_start hstart
      refine ⟨hprecision, hbackend, hops, ?_⟩
      rw [run, hrequest]
      dsimp only
      rw [runSession, hstart]
    · rw [run, hrequest]
      dsimp only
      rw [runSession, hstart]
      rfl
    · exact Options.start_eq_error hstart

/-- Operators and precision are both at fault, and then neither is. -/
theorem run_refuses_exactly_caret :
    (Request.ofArguments {} ["-p", "2000", "--operateurs", "+^"] =
        .session { precision := 2000, operators := "+^" } ∧
      run {} ["-p", "2000", "--operateurs", "+^"] false [] =
        ⟨1, "", StartError.text (.operators (.unknownOperator '^'))⟩) ∧
    Request.ofArguments {} ["-p3", "--operateurs= +-\u00a0+"] =
        .session { precision := 3, operators := " +-\u00a0+" } ∧
      ∃ session, Options.start { precision := 3, operators := " +-\u00a0+" } = .ok session ∧
        session.engine.precision = 3 ∧
        parseOperators " +-\u00a0+" = .ok session.engine.operators := by
  have hrequest : Request.ofArguments {} ["-p", "2000", "--operateurs", "+^"] =
      .session { precision := 2000, operators := "+^" } := by decide +kernel
  have hrequest' : Request.ofArguments {} ["-p3", "--operateurs= +-\u00a0+"] =
      .session { precision := 3, operators := " +-\u00a0+" } := by decide +kernel
  have hstart : Options.start { precision := 2000, operators := "+^" } =
      .error (.operators (.unknownOperator '^')) := by decide +kernel
  obtain ⟨-, -, hrefused⟩ := run_refuses_exactly.2 _ _ _ false [] {} hrequest
  obtain ⟨hstarts, hkept, -⟩ := run_refuses_exactly.2 _ _ _ false [] {} hrequest'
  obtain ⟨session, hsession⟩ := hstarts.mpr ⟨⟨[.plus, .minus], by decide +kernel⟩, by decide⟩
  obtain ⟨hprecision, -, hops, -⟩ := hkept session hsession
  exact ⟨⟨hrequest, (hrefused _ hstart).1⟩, hrequest', session, hsession, hprecision, hops⟩

end PostfixCalculator.CommandLine
