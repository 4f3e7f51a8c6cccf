import Chip8.Proofs.Options.Grammar

/-!
# The first error of a command line

Arguments are read from left to right, so what makes no sense is reported however the
arguments go on. Only two errors are about an end that came too early, and every beginning
of accepted arguments that is not itself accepted gives one of them.
-/

namespace Chip8

namespace Options

open Item

variable {args first : List String} {options : Options} {cause : Error} {flag : String}

theorem parse_append_eq_error (h : parse first = .error cause) (hfinal : ¬ AsksForMore cause)
    (rest : List String) : parse (first ++ rest) = .error cause := by
  cases Draft.read_cases {} first with
  | finished items hargs hadmits =>
      rw [← hargs, parse_spell hadmits, Draft.finish_eq_error_iff] at h
      rw [h.2] at hfinal
      exact absurd AsksForMore.program hfinal
  | starved items flag hflag hargs hadmits =>
      rw [← hargs, parse_spell_append_flag hadmits hflag] at h
      cases h
      exact absurd (AsksForMore.value hflag) hfinal
  | refused text _ hread =>
      rw [parse_of_refused hread] at h
      cases h
      exact hread rest

theorem parse_eq_missing_program_iff :
    parse args = .error (.usage "missing ROM path") ↔
      exists items, spell items = args ∧ (∀ item ∈ items, item.Valid) ∧
        programs items = [] := by
  constructor
  · intro h
    cases Draft.read_cases {} args with
    | finished items hargs hadmits =>
        rw [← hargs, parse_spell hadmits, Draft.finish_eq_error_iff, Draft.program_addAll,
          List.getLast?_eq_none_iff] at h
        exact ⟨items, hargs, (Draft.admits_start_iff.mp hadmits).1, h.1⟩
    | starved items flag hflag hargs hadmits =>
        rw [← hargs, parse_spell_append_flag hadmits hflag] at h
        rcases hflag with rfl | rfl
        · exact absurd (Except.error.inj h) (by decide)
        · exact absurd (Except.error.inj h) (by decide)
    | refused text hfinal hread =>
        rw [parse_of_refused hread] at h
        cases h
        exact absurd AsksForMore.program hfinal
  · intro h
    rcases h with ⟨items, rfl, hvalid, hprograms⟩
    have hcount : (programs items).length ≤ 1 := by
      rw [hprograms]
      exact Nat.zero_le 1
    rw [parse_spell (Draft.admits_start_iff.mpr ⟨hvalid, hcount⟩), Draft.finish_eq_error_iff,
      Draft.program_addAll, hprograms]
    exact ⟨rfl, rfl⟩

theorem parse_eq_missing_value_iff (hflag : flag = "--hz" ∨ flag = "--cycles") :
    parse args = .error (.usage (flag ++ " needs a value")) ↔
      exists items, spell items ++ [flag] = args ∧ (∀ item ∈ items, item.Valid) ∧
        (programs items).length ≤ 1 := by
  constructor
  · intro h
    cases Draft.read_cases {} args with
    | finished items hargs hadmits =>
        rw [← hargs, parse_spell hadmits, Draft.finish_eq_error_iff] at h
        rcases hflag with rfl | rfl
        · exact absurd h.2 (by decide)
        · exact absurd h.2 (by decide)
    | starved items last hlast hargs hadmits =>
        rw [← hargs, parse_spell_append_flag hadmits hlast] at h
        have htext := Error.usage.inj (Except.error.inj h)
        rw [String.append_left_inj] at htext
        rw [htext] at hargs
        exact ⟨items, hargs, Draft.admits_start_iff.mp hadmits⟩
    | refused text hfinal hread =>
        rw [parse_of_refused hread] at h
        cases h
        exact absurd (AsksForMore.value hflag) hfinal
  · intro h
    rcases h with ⟨items, rfl, hitems⟩
    exact parse_spell_append_flag (Draft.admits_start_iff.mpr hitems) hflag

theorem parse_beginning_of_ok {rest : List String} (h : parse (first ++ rest) = .ok options) :
    (exists begun, parse first = .ok begun) ∨
      exists cause, AsksForMore cause ∧ parse first = .error cause := by
  cases hfirst : parse first with
  | ok begun => exact Or.inl ⟨begun, rfl⟩
  | error cause =>
      right
      by_cases hasks : AsksForMore cause
      · exact ⟨cause, hasks, rfl⟩
      · rw [parse_append_eq_error hfirst hasks rest] at h
        cases h

/-- Which error is reported. One that is not about a missing end is reported however the
arguments go on; the other two are reported exactly if a program or a value is all that is
missing. -/
theorem first_error_is_reported :
    (forall first rest cause, parse first = .error cause -> ¬ AsksForMore cause ->
      parse (first ++ rest) = .error cause) ∧
    (forall args, parse args = .error (.usage "missing ROM path") ↔
      exists items, spell items = args ∧ (∀ item ∈ items, item.Valid) ∧
        programs items = []) ∧
    (forall args flag, flag = "--hz" ∨ flag = "--cycles" ->
      (parse args = .error (.usage (flag ++ " needs a value")) ↔
        exists items, spell items ++ [flag] = args ∧ (∀ item ∈ items, item.Valid) ∧
          (programs items).length ≤ 1)) ∧
    forall first rest options, parse (first ++ rest) = .ok options ->
      (exists begun, parse first = .ok begun) ∨
        exists cause, AsksForMore cause ∧ parse first = .error cause := by
  refine ⟨?_, ?_, ?_, ?_⟩
  · intro first rest cause hfirst hfinal
    exact parse_append_eq_error hfirst hfinal rest
  · intro args
    exact parse_eq_missing_program_iff
  · intro args flag hflag
    exact parse_eq_missing_value_iff hflag
  · intro first rest options haccepted
    exact parse_beginning_of_ok haccepted

theorem zero_rate_is_reported :
    ¬ AsksForMore (.usage "--hz must be greater than zero") ∧
      parse ["--hz", "0", "--cycles"] = .error (.usage "--hz must be greater than zero") ∧
      (exists items, spell items ++ ["--cycles"] = ["--hz", "7", "--cycles"] ∧
        (∀ item ∈ items, item.Valid) ∧ (programs items).length ≤ 1) ∧
      exists cause, AsksForMore cause ∧ parse ["--hz"] = .error cause := by
  rcases first_error_is_reported with ⟨hfinal, _, hvalue, hbeginning⟩
  refine ⟨not_asksForMore_zero, hfinal ["--hz", "0"] ["--cycles"] _ rfl not_asksForMore_zero,
    (hvalue ["--hz", "7", "--cycles"] "--cycles" (Or.inr rfl)).mp rfl, ?_⟩
  rcases hbeginning ["--hz"] ["7", "pong"] { program := "pong", rate := 7 } rfl with
    haccepted | hasks
  · rcases haccepted with ⟨begun, hbegun⟩
    cases hbegun
  · exact hasks

end Options

end Chip8
