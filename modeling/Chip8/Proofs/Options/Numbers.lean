import Chip8.Proofs.Numeral.Decimal
import Chip8.Proofs.Options.Items

/-!
# Numbers on the command line

The value of an option is read as a number if it is a numeral of one that the option has room
for, and is reported together with the option if not. Nothing else about the text matters. A
rate of zero is read like any other number, and refused afterwards.
-/

namespace Chip8

namespace Options

open Numeral.Decimal

variable {draft : Draft} {width n : Nat} {flag value : String}

theorem readNumber_eq_ok_iff :
    readNumber width flag value = .ok n ↔ Denotes value n ∧ n < 2 ^ width := by
  rw [← readBits?_eq_some_iff, readNumber]
  cases readBits? width value with
  | some number => simp only [Except.ok.injEq, Option.some.injEq]
  | none => simp only [reduceCtorEq]

theorem readBits?_eq_none_iff :
    readBits? width value = none ↔ ¬ exists n, Denotes value n ∧ n < 2 ^ width := by
  simp only [Option.eq_none_iff_forall_ne_some, ne_eq, readBits?_eq_some_iff, not_exists]

theorem readNumber_eq_error_iff :
    readNumber width flag value =
        .error (.usage ("invalid value '" ++ value ++ "' for " ++ flag)) ↔
      ¬ exists n, Denotes value n ∧ n < 2 ^ width := by
  rw [← readBits?_eq_none_iff, readNumber]
  cases readBits? width value with
  | some number => simp only [reduceCtorEq]
  | none => simp only

namespace Draft

structure TakesNumber (draft : Draft) (flag : String) (width : Nat)
    (set : Nat → Except Error Draft) : Prop where
  accepted : forall value n rest, Denotes value n -> n < 2 ^ width ->
    draft.read (flag :: value :: rest) = set n >>= fun next => next.read rest
  refused : forall value rest, (¬ exists n, Denotes value n ∧ n < 2 ^ width) ->
    draft.read (flag :: value :: rest) =
      .error (.usage ("invalid value '" ++ value ++ "' for " ++ flag))

def withRate (draft : Draft) (n : Nat) : Except Error Draft :=
  if n = 0 then .error (.usage "--hz must be greater than zero")
  else .ok { draft with rate := UInt32.ofNat n }

def withLimit (draft : Draft) (n : Nat) : Except Error Draft :=
  .ok { draft with limit := some (UInt64.ofNat n) }

theorem takesNumber_rate (draft : Draft) : draft.TakesNumber "--hz" 32 draft.withRate where
  accepted value n rest hvalue hfits := by
    have hread := readBits?_eq_some_iff.mpr ⟨hvalue, hfits⟩
    rw [read_flag (Or.inl rfl), setValue, if_pos rfl, setRate_of_some hread, add, hread]
    rfl
  refused value rest hnone := by
    rw [read_flag (Or.inl rfl), setValue, if_pos rfl,
      setRate_of_none (readBits?_eq_none_iff.mpr hnone)]
    rfl

theorem takesNumber_limit (draft : Draft) :
    draft.TakesNumber "--cycles" 64 draft.withLimit where
  accepted value n rest hvalue hfits := by
    have hread := readBits?_eq_some_iff.mpr ⟨hvalue, hfits⟩
    rw [read_flag (Or.inr rfl), setValue, if_neg (by decide), setLimit_of_some hread, add, hread]
    rfl
  refused value rest hnone := by
    rw [read_flag (Or.inr rfl), setValue, if_neg (by decide),
      setLimit_of_none (readBits?_eq_none_iff.mpr hnone)]
    rfl

end Draft

/-- A value is read as a number exactly if it is a numeral of one that fits, and as that
number; otherwise the value and the option are reported. So a number that fits is read back
from what is written for it, also behind zeros and a sign. Wherever the two options with a
number stand among the arguments, their values are read in this way. -/
theorem numerals_are_read :
    (forall width flag value n,
      readNumber width flag value = .ok n ↔ Denotes value n ∧ n < 2 ^ width) ∧
    (forall width flag value,
      readNumber width flag value =
          .error (.usage ("invalid value '" ++ value ++ "' for " ++ flag)) ↔
        ¬ exists n, Denotes value n ∧ n < 2 ^ width) ∧
    (forall width flag sign zeros n, sign = [] ∨ sign = ['+'] -> n < 2 ^ width ->
      readNumber width flag
        (String.ofList (sign ++ List.replicate zeros '0') ++ Numeral.Decimal.render n) = .ok n) ∧
    (forall draft : Draft, draft.TakesNumber "--hz" 32 draft.withRate ∧
      draft.TakesNumber "--cycles" 64 draft.withLimit) := by
  refine ⟨fun _ _ _ _ => readNumber_eq_ok_iff, fun _ _ _ => readNumber_eq_error_iff, ?_, ?_⟩
  · intro width flag sign zeros n hsign hfits
    exact readNumber_eq_ok_iff.mpr ⟨denotes_render hsign zeros n, hfits⟩
  · intro draft
    exact ⟨draft.takesNumber_rate, draft.takesNumber_limit⟩

theorem largest_rate_is_read :
    readNumber 32 "--hz" "+004294967295" = .ok 4294967295 ∧
      Draft.read {} ["--hz", "+07", "pong"] = .ok { program := "pong", rate := 7 } ∧
      Draft.read {} ["pong", "--cycles", "18446744073709551616"] =
        .error (.usage "invalid value '18446744073709551616' for --cycles") := by
  rcases numerals_are_read with ⟨_, _, hwritten, htakes⟩
  have htext : String.ofList (['+'] ++ List.replicate 2 '0') ++
      Numeral.Decimal.render 4294967295 = "+004294967295" := by
    decide +kernel
  have hseven : Denotes "+07" 7 := read?_eq_some_iff.mp rfl
  have hlarge : ¬ exists n, Denotes "18446744073709551616" n ∧ n < 2 ^ 64 :=
    readBits?_eq_none_iff.mp rfl
  refine ⟨?_, ?_, ?_⟩
  · rw [← htext]
    exact hwritten 32 "--hz" ['+'] 2 4294967295 (Or.inr rfl) (by decide)
  · exact (htakes {}).1.accepted "+07" 7 ["pong"] hseven (by decide)
  · exact (htakes { program := some "pong" }).2.refused "18446744073709551616" [] hlarge

end Options

end Chip8
