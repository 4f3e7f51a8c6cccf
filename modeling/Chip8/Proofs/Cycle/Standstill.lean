import Chip8.Proofs.Cycle.ControlFlow
import Chip8.Proofs.Runner.Stability

/-!
# Standing still

Two kinds of words hold a machine in place: one that waits for a key while none is down, and
one that stands for nothing in the arithmetic or the key family. Cycle after cycle the same
word is fetched, and nothing but time passes.
-/

namespace Chip8

namespace Machine

def countDownBy (timer : UInt8) (n : Nat) : UInt8 :=
  UInt8.ofNat (timer.toNat - n)

def agedBy (m : Machine) (n : Nat) : Machine :=
  { m with
    delayTimer := countDownBy m.delayTimer n
    soundTimer := countDownBy m.soundTimer n }

def held (m : Machine) (word : UInt16) (outbox : Outbox) : Nat → Machine
  | 0 => m
  | n + 1 => { m.agedBy (n + 1) with drawn := false, opcode := word, outbox }

/-- The word holds the machine: every further cycle ends with the same outcome and requests
and lets time pass, and does nothing else. -/
def Holds (m : Machine) (word : UInt16) (outcome : Outcome) (outbox : Outbox) : Prop :=
  forall n, (m.held word outbox n).cycle = .ok outcome (m.held word outbox (n + 1))

variable {m : Machine} {word : UInt16} {outcome : Outcome} {outbox : Outbox}

/-!
## Counting down
-/

theorem toNat_countDownBy (timer : UInt8) (n : Nat) :
    (countDownBy timer n).toNat = timer.toNat - n :=
  UInt8.toNat_ofNat_of_lt' (Nat.lt_of_le_of_lt (Nat.sub_le _ n) timer.toNat_lt)

theorem countDownBy_zero (timer : UInt8) : countDownBy timer 0 = timer :=
  UInt8.toNat_inj.mp (toNat_countDownBy timer 0)

theorem countDown_countDownBy (timer : UInt8) (n : Nat) :
    countDown (countDownBy timer n) = countDownBy timer (n + 1) := by
  rw [← UInt8.toNat_inj, toNat_countDown, toNat_countDownBy, toNat_countDownBy, Nat.sub_sub]

theorem countDown_eq (timer : UInt8) : countDown timer = countDownBy timer 1 := by
  have hfirst := countDown_countDownBy timer 0
  rw [countDownBy_zero] at hfirst
  exact hfirst

theorem aged_fetched_held (m : Machine) (word : UInt16) (outbox left : Outbox) (n : Nat) :
    aged { (m.held word outbox n).fetched word with outbox := left } =
      m.held word left (n + 1) := by
  cases n with
  | zero =>
      simp only [held, aged, agedBy, countDown_eq]
      rfl
  | succ n =>
      simp only [held, aged, agedBy, fetched, begun, countDown_countDownBy]

/-!
## Held machines
-/

theorem afterCycles_of_holds (h : m.Holds word outcome outbox) (n : Nat) :
    m.afterCycles n = m.held word outbox n := by
  induction n with
  | zero => rfl
  | succ n ih => rw [afterCycles_succ, ih, cycled_of_ok (h n)]

theorem word?_held (hword : m.memory.word? m.pc = some word) (n : Nat) :
    (m.held word outbox n).memory.word? (m.held word outbox n).pc = some word := by
  cases n <;> exact hword

theorem keys_held (n : Nat) : (m.held word outbox n).keys = m.keys := by
  cases n <;> rfl

theorem holds_of_waits (hword : m.memory.word? m.pc = some word) (hwaits : m.Waits word) :
    m.Holds word .executed (Outbox.single .awaitKey) := by
  intro n
  have hlowest : (m.held word (Outbox.single .awaitKey) n).keys.lowestDown? = none := by
    rw [keys_held]
    exact hwaits.2.2
  rw [cycle_of_waits (word?_held hword n) ⟨hwaits.1, hwaits.2.1, hlowest⟩, aged_fetched_held]

theorem passed_of_refused (hrefused : Opcode.IsRefused word) :
    m.passed word = aged { m.fetched word with outbox := Outbox.empty } := by
  rw [passed, passesOver_of_refused hrefused]
  rfl

theorem holds_of_refused (hword : m.memory.word? m.pc = some word)
    (hrefused : Opcode.IsRefused word) :
    m.Holds word (.diagnosed (.noInstruction word)) Outbox.empty := by
  have hunknown := Instruction.ofWord?_eq_none_iff.mpr (Or.inl hrefused)
  intro n
  rw [cycle_of_unknown (word?_held hword n) hunknown, passed_of_refused hrefused,
    aged_fetched_held]

end Machine

end Chip8
