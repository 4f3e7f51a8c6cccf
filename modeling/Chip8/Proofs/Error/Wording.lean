import Chip8.Error
import Chip8.Proofs.Numeral.Written

/-!
# The wording of errors

An error that is worded here is reported with the fixed text of its kind and with its numbers
in the gaps of it. No kind's text begins like another's, and behind every number the text ends
or goes on with a space, so kind and numbers can be told from what is reported.
-/

namespace Chip8

open Numeral (Form Ends)

/-!
## Texts with gaps
-/

structure Wording.Gap where
  form : Form
  behind : String

structure Wording where
  lead : String
  gaps : List Wording.Gap

namespace Wording

def fill : List Gap → List Nat → String
  | gap :: gaps, n :: ns => gap.form.render n ++ (gap.behind ++ fill gaps ns)
  | _, _ => ""

def text (wording : Wording) (ns : List Nat) : String :=
  wording.lead ++ fill wording.gaps ns

theorem fill_nil (ns : List Nat) : fill [] ns = "" :=
  rfl

theorem fill_cons (form : Form) (behind : String) (gaps : List Gap) (n : Nat) (ns : List Nat) :
    fill (⟨form, behind⟩ :: gaps) (n :: ns) = form.render n ++ (behind ++ fill gaps ns) :=
  rfl

theorem fill_behind (form : Form) (behind : String) (n : Nat) :
    fill [⟨form, behind⟩] [n] = form.render n ++ behind := by
  rw [fill_cons, fill_nil, String.append_empty]

theorem fill_last (form : Form) (n : Nat) : fill [⟨form, ""⟩] [n] = form.render n := by
  rw [fill_behind, String.append_empty]

/-- Behind each gap the text ends or goes on with a space. -/
inductive Legible : List Gap → Prop where
  | nil : Legible []
  | last (form : Form) : Legible [⟨form, ""⟩]
  | cons (form : Form) {behind : String} {gaps : List Gap} {rest : List Char} :
      behind.toList = ' ' :: rest → Legible gaps → Legible (⟨form, behind⟩ :: gaps)

theorem ends_append {behind : String} {rest : List Char} (h : behind.toList = ' ' :: rest)
    (text : String) : Ends (behind ++ text).toList := by
  rw [String.toList_append, h, List.cons_append]
  exact Numeral.ends_space _

theorem fill_inj {gaps : List Gap} (hgaps : Legible gaps) {ns ms : List Nat}
    (hns : ns.length = gaps.length) (hms : ms.length = gaps.length)
    (h : fill gaps ns = fill gaps ms) : ns = ms := by
  -- The first number is told from what stands behind it, and the others fill the other gaps.
  induction hgaps generalizing ns ms with
  | nil => rw [List.eq_nil_of_length_eq_zero hns, List.eq_nil_of_length_eq_zero hms]
  | last form =>
      rcases List.length_eq_one_iff.mp hns with ⟨n, rfl⟩
      rcases List.length_eq_one_iff.mp hms with ⟨m, rfl⟩
      have hnumbers := (Form.render_append_inj Numeral.ends_empty Numeral.ends_empty h).1
      rw [hnumbers]
  | cons form hbehind hgaps ih =>
      rcases List.exists_cons_of_length_eq_add_one hns with ⟨n, ns, rfl⟩
      rcases List.exists_cons_of_length_eq_add_one hms with ⟨m, ms, rfl⟩
      have hsplit := Form.render_append_inj (ends_append hbehind _) (ends_append hbehind _) h
      have hrest := (String.append_right_inj _).mp hsplit.2
      rw [hsplit.1, ih (Nat.succ.inj hns) (Nat.succ.inj hms) hrest]

end Wording

namespace Error

open Wording

/-!
## Kinds
-/

inductive Kind where
  | counterOutside
  | noInstruction
  | addressOutside
  | pixelOutside
  | stackFull
  | stackEmpty
  | noSuchKey
  | outboxFull
  | programTooLong
  deriving DecidableEq

def Kind.wording : Kind → Wording
  | counterOutside => ⟨"program counter is out of memory bounds: ", [⟨.hex 4, ""⟩]⟩
  | noInstruction => ⟨"unknown opcode: ", [⟨.hex 4, ""⟩]⟩
  | addressOutside => ⟨"memory access out of bounds at address ", [⟨.hex 4, ""⟩]⟩
  | pixelOutside => ⟨"framebuffer access out of bounds at index ", [⟨.decimal, ""⟩]⟩
  | stackFull => ⟨"stack overflow: call depth exceeds ", [⟨.decimal, " entries"⟩]⟩
  | stackEmpty => ⟨"stack underflow: return with an empty call stack", []⟩
  | noSuchKey => ⟨"key index ", [⟨.hex 2, " is not a valid key"⟩]⟩
  | outboxFull => ⟨"command buffer is full (", [⟨.decimal, " commands)"⟩]⟩
  | programTooLong =>
      ⟨"program is too large (",
        [⟨.decimal, " bytes), max size is "⟩, ⟨.decimal, " bytes"⟩]⟩

theorem Kind.legible (kind : Kind) : Legible kind.wording.gaps := by
  cases kind with
  | stackEmpty => exact .nil
  | counterOutside | noInstruction | addressOutside | pixelOutside => exact .last _
  | stackFull | noSuchKey | outboxFull => exact .cons _ rfl .nil
  | programTooLong => exact .cons _ rfl (.cons _ rfl .nil)

def Kind.all : List Kind :=
  [counterOutside, noInstruction, addressOutside, pixelOutside, stackFull, stackEmpty,
    noSuchKey, outboxFull, programTooLong]

theorem Kind.mem_all (kind : Kind) : kind ∈ all := by
  cases kind <;> decide

theorem Kind.eq_of_lead_begins {kind other : Kind}
    (h : kind.wording.lead.toList <+: other.wording.lead.toList) : kind = other := by
  have hall : ∀ kind ∈ all, ∀ other ∈ all,
      kind.wording.lead.toList <+: other.wording.lead.toList -> kind = other := by
    decide
  exact hall kind kind.mem_all other other.mem_all h

theorem Kind.eq_of_text_eq {kind other : Kind} {ns ms : List Nat}
    (h : kind.wording.text ns = other.wording.text ms) : kind = other := by
  have hlead : kind.wording.lead.toList <+: (other.wording.text ms).toList := by
    rw [← h, Wording.text, String.toList_append]
    exact List.prefix_append _ _
  have hother : other.wording.lead.toList <+: (other.wording.text ms).toList := by
    rw [Wording.text, String.toList_append]
    exact List.prefix_append _ _
  -- Both leads begin the one text, so the shorter one begins the longer.
  rcases List.prefix_or_prefix_of_prefix hlead hother with hshort | hlong
  · exact eq_of_lead_begins hshort
  · exact (eq_of_lead_begins hlong).symm

/-!
## Errors by kind and numbers
-/

/-- The error is worded here: a usage error brings its own text, and a file that was not read
has the text of the operating system. -/
def IsWorded : Error → Prop
  | usage _ | file _ => False
  | _ => True

def parts? : Error → Option (Kind × List Nat)
  | counterOutside pc => some (.counterOutside, [pc.toNat])
  | noInstruction opcode => some (.noInstruction, [opcode.toNat])
  | addressOutside address => some (.addressOutside, [address])
  | pixelOutside index => some (.pixelOutside, [index])
  | stackFull depth => some (.stackFull, [depth])
  | stackEmpty => some (.stackEmpty, [])
  | noSuchKey key => some (.noSuchKey, [key])
  | outboxFull capacity => some (.outboxFull, [capacity])
  | programTooLong size limit => some (.programTooLong, [size, limit])
  | usage _ => none
  | file _ => none

def ofParts? : Kind → List Nat → Option Error
  | .counterOutside, [pc] => some (counterOutside (UInt16.ofNat pc))
  | .noInstruction, [opcode] => some (noInstruction (UInt16.ofNat opcode))
  | .addressOutside, [address] => some (addressOutside address)
  | .pixelOutside, [index] => some (pixelOutside index)
  | .stackFull, [depth] => some (stackFull depth)
  | .stackEmpty, [] => some stackEmpty
  | .noSuchKey, [key] => some (noSuchKey key)
  | .outboxFull, [capacity] => some (outboxFull capacity)
  | .programTooLong, [size, limit] => some (programTooLong size limit)
  | _, _ => none

variable {e other : Error} {kind : Kind} {ns : List Nat}

theorem exists_parts (h : e.IsWorded) : exists kind ns, e.parts? = some (kind, ns) := by
  cases e with
  | usage text => exact h.elim
  | file fault => exact h.elim
  | _ => exact ⟨_, _, rfl⟩

theorem ofParts?_of_parts? (h : e.parts? = some (kind, ns)) : ofParts? kind ns = some e := by
  cases e with
  | counterOutside | noInstruction =>
      cases h
      rw [ofParts?, UInt16.ofNat_toNat]
  | usage text => cases h
  | file fault => cases h
  | _ =>
      cases h
      rfl

theorem length_of_parts? (h : e.parts? = some (kind, ns)) :
    ns.length = kind.wording.gaps.length := by
  cases e <;> cases h <;> rfl

theorem message_of_parts? (h : e.parts? = some (kind, ns)) :
    e.message = kind.wording.text ns := by
  cases e with
  | counterOutside | noInstruction | addressOutside | pixelOutside =>
      cases h
      rw [Wording.text, Kind.wording, fill_last]
      rfl
  | stackFull | noSuchKey | outboxFull =>
      cases h
      rw [Wording.text, Kind.wording, fill_behind, ← String.append_assoc]
      rfl
  | stackEmpty =>
      cases h
      exact String.append_empty.symm
  | programTooLong size limit =>
      cases h
      rw [Wording.text, Kind.wording, fill_cons, fill_behind]
      simp only [← String.append_assoc]
      rfl
  | usage text => cases h
  | file fault => cases h

/-- The text that tells an error, spelled without the function that writes it. -/
inductive Told : Error → String → Prop where
  | worded {e : Error} {kind : Kind} {ns : List Nat} (hparts : e.parts? = some (kind, ns)) :
      Told e (kind.wording.text ns)
  | usage (text : String) : Told (usage text) text
  | file {fault : FileFault} {code : String}
      (hcode : Numeral.Written 10 0 code.toList fault.code) :
      Told (file fault) (fault.reason ++ " (os error " ++ code ++ ")")

theorem told_message (e : Error) : Told e e.message := by
  cases e with
  | usage text => exact .usage text
  | file fault => exact .file (Form.written_decimal_iff.mpr rfl)
  | _ =>
      rw [message_of_parts? rfl]
      exact .worded rfl

theorem Told.eq_message {text : String} (h : Told e text) : text = e.message := by
  cases h with
  | worded hparts => exact (message_of_parts? hparts).symm
  | usage text => rfl
  | file hcode =>
      rw [Form.written_decimal_iff.mp hcode]
      rfl

theorem eq_of_message_eq (he : e.IsWorded) (hother : other.IsWorded)
    (h : e.message = other.message) : e = other := by
  rcases exists_parts he with ⟨kind, ns, hparts⟩
  rcases exists_parts hother with ⟨kind', ms, hparts'⟩
  rw [message_of_parts? hparts, message_of_parts? hparts'] at h
  have hkind : kind = kind' := Kind.eq_of_text_eq h
  subst hkind
  have hfilled := (String.append_right_inj _).mp h
  have hnumbers : ns = ms :=
    fill_inj kind.legible (length_of_parts? hparts) (length_of_parts? hparts') hfilled
  rw [← hnumbers] at hparts'
  exact Option.some.inj ((ofParts?_of_parts? hparts).symm.trans (ofParts?_of_parts? hparts'))

/-- Errors that are worded here are reported with the same text only if they are the same,
whatever numbers they carry. The text is that of their kind with the numbers in the gaps, and
what is written for a number, in decimal or in hexadecimal with any least number of digits,
belongs to that number alone. -/
theorem texts_tell_errors_apart :
    (forall e other : Error, e.IsWorded -> other.IsWorded ->
      (e.message = other.message ↔ e = other)) ∧
    (forall e : Error, e.IsWorded ->
      exists kind ns, e.parts? = some (kind, ns) ∧ e.message = kind.wording.text ns) ∧
    (forall form : Form, Function.Injective form.render ∧
      forall n text, text = form.render n ↔
        exists digits, text.toList = form.lead ++ digits ∧
          Numeral.Written form.base form.least digits n) := by
  refine ⟨?_, ?_, ?_⟩
  · intro e other he hother
    exact ⟨eq_of_message_eq he hother, congrArg message⟩
  · intro e he
    rcases exists_parts he with ⟨kind, ns, hparts⟩
    exact ⟨kind, ns, hparts, message_of_parts? hparts⟩
  · intro form
    exact ⟨form.render_injective, fun _ _ => Form.eq_render_iff⟩

theorem lengths_are_told_apart :
    (programTooLong 18446744073709551615 3584).message ≠
      (programTooLong 3584 18446744073709551615).message := by
  intro h
  have hlong : (programTooLong 18446744073709551615 3584).IsWorded := trivial
  have hlarge : (programTooLong 3584 18446744073709551615).IsWorded := trivial
  cases (texts_tell_errors_apart.1 _ _ hlong hlarge).mp h

end Error

end Chip8
