import Chip8.Proofs.Options.Reading

/-!
# Items of a command line

Arguments are read as items: an option with its value, the switch, or a positional argument,
which names the program. A list of arguments is spelled by at most one list of items. Here
are the items that a draft admits, the draft that they leave, and the three ways in which the
reading of any arguments goes.
-/

namespace Chip8

namespace Options

structure Positional where
  text : String
  not_option : text.toList.head? ≠ some '-'
  deriving DecidableEq, Repr

theorem Positional.ne_of_option (path : Positional) {option : String}
    (h : option.toList.head? = some '-') : path.text ≠ option := by
  intro hsame
  rw [← hsame] at h
  exact path.not_option h

inductive Item where
  | rate (value : String)
  | limit (value : String)
  | noRender
  | program (path : Positional)
  deriving DecidableEq, Repr

namespace Item

def args : Item → List String
  | rate value => ["--hz", value]
  | limit value => ["--cycles", value]
  | noRender => ["--no-render"]
  | program path => [path.text]

def spell (items : List Item) : List String :=
  items.flatMap args

def rate? : Item → Option String
  | rate value => some value
  | _ => none

def limit? : Item → Option String
  | limit value => some value
  | _ => none

def program? : Item → Option String
  | program path => some path.text
  | _ => none

def Valid : Item → Prop
  | rate value => exists n, Numeral.Decimal.readBits? 32 value = some n ∧ 1 ≤ n
  | limit value => exists n, Numeral.Decimal.readBits? 64 value = some n
  | noRender | program _ => True

def rates (items : List Item) : List String :=
  items.filterMap rate?

def limits (items : List Item) : List String :=
  items.filterMap limit?

def programs (items : List Item) : List String :=
  items.filterMap program?

/-!
## The spelling of items
-/

theorem spell_cons (item : Item) (items : List Item) :
    spell (item :: items) = item.args ++ spell items :=
  rfl

/-- Takes an item off the front of a list of arguments. There is none in front of an option
that is unknown or lacks its value. -/
def next? : List String → Option (Item × List String)
  | [] => none
  | arg :: rest =>
      if arg = "--hz" then rest.head?.map fun value => (rate value, rest.tail)
      else if arg = "--cycles" then rest.head?.map fun value => (limit value, rest.tail)
      else if arg = "--no-render" then some (noRender, rest)
      else if h : arg.toList.head? ≠ some '-' then some (program ⟨arg, h⟩, rest)
      else none

theorem next?_args_append (item : Item) (rest : List String) :
    next? (item.args ++ rest) = some (item, rest) := by
  cases item with
  | rate value | limit value | noRender => rfl
  | program path =>
      have hrate : path.text ≠ "--hz" := path.ne_of_option (by decide)
      have hlimit : path.text ≠ "--cycles" := path.ne_of_option (by decide)
      have hswitch : path.text ≠ "--no-render" := path.ne_of_option (by decide)
      show next? (path.text :: rest) = _
      rw [next?, if_neg hrate, if_neg hlimit, if_neg hswitch, dif_pos path.not_option]

theorem args_append_inj {item other : Item} {rest otherRest : List String}
    (h : item.args ++ rest = other.args ++ otherRest) : item = other ∧ rest = otherRest := by
  have hnext := next?_args_append item rest
  rw [h, next?_args_append] at hnext
  cases hnext
  exact ⟨rfl, rfl⟩

theorem spell_inj {items other : List Item} (h : spell items = spell other) :
    items = other := by
  induction items generalizing other with
  | nil =>
      cases other with
      | nil => rfl
      | cons item rest => cases item <;> cases h
  | cons item rest ih =>
      cases other with
      | nil => cases item <;> cases h
      | cons otherItem otherRest =>
          rcases args_append_inj h with ⟨rfl, hrest⟩
          rw [ih hrest]

end Item

/-- An error that further arguments may mend: no program is named yet, or an option has no
value yet. -/
inductive AsksForMore : Error → Prop where
  | program : AsksForMore (.usage "missing ROM path")
  | value {flag : String} (hflag : flag = "--hz" ∨ flag = "--cycles") :
      AsksForMore (.usage (flag ++ " needs a value"))

section

variable {text : String}

theorem not_asksForMore_of_head
    (h : text.toList.head? = some 'i' ∨ text.toList.head? = some 'u') :
    ¬ AsksForMore (.usage text) := by
  intro hasks
  cases hasks with
  | program => exact absurd h (by decide)
  | value hflag => rcases hflag with rfl | rfl <;> exact absurd h (by decide)

theorem not_asksForMore_invalid (value flag : String) :
    ¬ AsksForMore (.usage ("invalid value '" ++ value ++ "' for " ++ flag)) := by
  apply not_asksForMore_of_head
  left
  simp only [String.toList_append]
  rfl

theorem not_asksForMore_unknown (arg : String) :
    ¬ AsksForMore (.usage ("unknown option '" ++ arg ++ "'")) := by
  apply not_asksForMore_of_head
  right
  simp only [String.toList_append]
  rfl

theorem not_asksForMore_unexpected (arg : String) :
    ¬ AsksForMore (.usage ("unexpected argument '" ++ arg ++ "'")) := by
  apply not_asksForMore_of_head
  right
  simp only [String.toList_append]
  rfl

theorem not_asksForMore_zero : ¬ AsksForMore (.usage "--hz must be greater than zero") := by
  generalize htext : Error.usage "--hz must be greater than zero" = cause
  intro hasks
  cases hasks with
  | program => exact absurd htext (by decide)
  | value hflag => rcases hflag with rfl | rfl <;> exact absurd htext (by decide)

end

namespace Draft

open Item

variable {draft : Draft} {item : Item} {items : List Item} {arg value : String} {n : Nat}
variable {rest : List String}

/-!
## What a draft admits
-/

def Takes (draft : Draft) : Item → Prop
  | .program _ => draft.program = none
  | item => item.Valid

def add (draft : Draft) : Item → Draft
  | .rate value =>
      { draft with rate := UInt32.ofNat ((Numeral.Decimal.readBits? 32 value).getD 0) }
  | .limit value =>
      { draft with limit := (Numeral.Decimal.readBits? 64 value).map UInt64.ofNat }
  | .noRender => { draft with render := false }
  | .program path => { draft with program := some path.text }

def addAll (draft : Draft) (items : List Item) : Draft :=
  items.foldl add draft

def Admits (draft : Draft) : List Item → Prop
  | [] => True
  | item :: items => draft.Takes item ∧ (draft.add item).Admits items

theorem admits_iff :
    draft.Admits items ↔ (∀ item ∈ items, item.Valid) ∧
      draft.program.toList.length + (programs items).length ≤ 1 := by
  induction items generalizing draft with
  | nil =>
      have hone : draft.program.toList.length ≤ 1 := by
        cases draft.program with
        | none => exact Nat.zero_le 1
        | some named => exact Nat.le_refl 1
      simp only [Admits, List.not_mem_nil, false_implies, implies_true, true_and, true_iff]
      exact hone
  | cons item items ih =>
      rw [Admits, ih, List.forall_mem_cons]
      cases item with
      | rate value | limit value | noRender =>
          rw [and_assoc]
          rfl
      | program path =>
          have hcount : (programs (.program path :: items)).length =
              (programs items).length + 1 := rfl
          have hadded : (draft.add (.program path)).program.toList.length = 1 := rfl
          rw [hcount, hadded]
          cases hprogram : draft.program with
          | none =>
              simp only [Takes, Valid, hprogram, true_and, Option.toList_none, List.length_nil]
              rw [Nat.zero_add, Nat.add_comm]
          | some named =>
              simp only [Takes, hprogram, reduceCtorEq, false_and, false_iff, not_and,
                Option.toList_some, List.length_singleton]
              lia

/-!
## One item
-/

theorem setRate_of_some (hread : Numeral.Decimal.readBits? 32 value = some n) :
    draft.setRate value =
      if n = 0 then .error (.usage "--hz must be greater than zero")
      else .ok (draft.add (.rate value)) := by
  simp only [setRate, readNumber, add, hread, Option.getD_some]
  change (if n = 0 then _ else _) = _
  split <;> rfl

theorem setRate_of_none (hread : Numeral.Decimal.readBits? 32 value = none) :
    draft.setRate value =
      .error (.usage ("invalid value '" ++ value ++ "' for " ++ "--hz")) := by
  simp only [setRate, readNumber, hread]
  rfl

theorem setLimit_of_some (hread : Numeral.Decimal.readBits? 64 value = some n) :
    draft.setLimit value = .ok (draft.add (.limit value)) := by
  simp only [setLimit, readNumber, add, hread]
  rfl

theorem setLimit_of_none (hread : Numeral.Decimal.readBits? 64 value = none) :
    draft.setLimit value =
      .error (.usage ("invalid value '" ++ value ++ "' for " ++ "--cycles")) := by
  simp only [setLimit, readNumber, hread]
  rfl

theorem take_switch (draft : Draft) :
    draft.take "--no-render" = .ok (draft.add .noRender) :=
  if_pos rfl

theorem take_positional (draft : Draft) (path : Positional) :
    draft.take path.text =
      if draft.program.isSome then .error (.usage ("unexpected argument '" ++ path.text ++ "'"))
      else .ok (draft.add (.program path)) := by
  have hswitch : path.text ≠ "--no-render" := path.ne_of_option (by decide)
  rw [take, if_neg hswitch, if_neg path.not_option]
  rfl

theorem not_flag_of_positional (path : Positional) :
    ¬ (path.text = "--hz" ∨ path.text = "--cycles") := by
  intro hflag
  rcases hflag with hrate | hlimit
  · exact path.ne_of_option (by decide) hrate
  · exact path.ne_of_option (by decide) hlimit

theorem read_positional (draft : Draft) (path : Positional) (rest : List String) :
    draft.read (path.text :: rest) = draft.take path.text >>= fun next => next.read rest :=
  read_plain (not_flag_of_positional path)

theorem read_of_takes (h : draft.Takes item) (rest : List String) :
    draft.read (item.args ++ rest) = (draft.add item).read rest := by
  cases item with
  | rate value =>
      rcases h with ⟨n, hread, hpos⟩
      show draft.read ("--hz" :: value :: rest) = _
      have hset : draft.setValue "--hz" value = .ok (draft.add (.rate value)) := by
        rw [setValue, if_pos rfl, setRate_of_some hread, if_neg (Nat.ne_of_gt hpos)]
      rw [read_flag (Or.inl rfl), hset]
      rfl
  | limit value =>
      rcases h with ⟨n, hread⟩
      show draft.read ("--cycles" :: value :: rest) = _
      have hset : draft.setValue "--cycles" value = .ok (draft.add (.limit value)) := by
        rw [setValue, if_neg (by decide), setLimit_of_some hread]
      rw [read_flag (Or.inr rfl), hset]
      rfl
  | noRender =>
      show draft.read ("--no-render" :: rest) = _
      rw [read_plain (by decide), take_switch]
      rfl
  | program path =>
      have hnone : ¬ draft.program.isSome = true := by
        rw [h]
        decide
      show draft.read (path.text :: rest) = _
      rw [read_positional, take_positional, if_neg hnone]
      rfl

theorem exists_refusal (h : ¬ draft.Takes item) :
    exists text, ¬ AsksForMore (.usage text) ∧
      forall rest, draft.read (item.args ++ rest) = .error (.usage text) := by
  cases item with
  | rate value =>
      cases hread : Numeral.Decimal.readBits? 32 value with
      | none =>
          refine ⟨"invalid value '" ++ value ++ "' for " ++ "--hz", ?_, fun rest => ?_⟩
          · exact not_asksForMore_invalid value "--hz"
          · show draft.read ("--hz" :: value :: rest) = _
            rw [read_flag (Or.inl rfl), setValue, if_pos rfl, setRate_of_none hread]
            rfl
      | some n =>
          have hzero : n = 0 := by
            rcases Nat.eq_zero_or_pos n with hzero | hpos
            · exact hzero
            · exact absurd ⟨n, hread, hpos⟩ h
          refine ⟨"--hz must be greater than zero", not_asksForMore_zero, fun rest => ?_⟩
          show draft.read ("--hz" :: value :: rest) = _
          rw [read_flag (Or.inl rfl), setValue, if_pos rfl, setRate_of_some hread,
            if_pos hzero]
          rfl
  | limit value =>
      cases hread : Numeral.Decimal.readBits? 64 value with
      | some n => exact absurd ⟨n, hread⟩ h
      | none =>
          refine ⟨"invalid value '" ++ value ++ "' for " ++ "--cycles", ?_, fun rest => ?_⟩
          · exact not_asksForMore_invalid value "--cycles"
          · show draft.read ("--cycles" :: value :: rest) = _
            rw [read_flag (Or.inr rfl), setValue, if_neg (by decide), setLimit_of_none hread]
            rfl
  | noRender => exact absurd True.intro h
  | program path =>
      have hsome : draft.program.isSome = true := Option.isSome_iff_ne_none.mpr h
      refine ⟨"unexpected argument '" ++ path.text ++ "'", ?_, fun rest => ?_⟩
      · exact not_asksForMore_unexpected path.text
      · show draft.read (path.text :: rest) = _
        rw [read_positional, take_positional, if_pos hsome]
        rfl

/-!
## The whole of the arguments
-/

theorem read_of_admits (h : draft.Admits items) (rest : List String) :
    draft.read (spell items ++ rest) = (draft.addAll items).read rest := by
  induction items generalizing draft with
  | nil => rfl
  | cons item items ih =>
      rw [spell_cons, List.append_assoc, read_of_takes h.1]
      exact ih h.2

inductive ReadCase (draft : Draft) (args : List String) : Prop where
  | finished (items : List Item) (hargs : spell items = args) (hadmits : draft.Admits items)
  | starved (items : List Item) (flag : String) (hflag : flag = "--hz" ∨ flag = "--cycles")
      (hargs : spell items ++ [flag] = args) (hadmits : draft.Admits items)
  | refused (text : String) (hfinal : ¬ AsksForMore (.usage text))
      (hread : forall more, draft.read (args ++ more) = .error (.usage text))

theorem readCase_args_append (item : Item) (hrest : forall next : Draft, next.ReadCase rest) :
    draft.ReadCase (item.args ++ rest) := by
  by_cases htakes : draft.Takes item
  · cases hrest (draft.add item) with
    | finished items hargs hadmits =>
        apply ReadCase.finished (item :: items) _ ⟨htakes, hadmits⟩
        rw [spell_cons, hargs]
    | starved items flag hflag hargs hadmits =>
        apply ReadCase.starved (item :: items) flag hflag _ ⟨htakes, hadmits⟩
        rw [spell_cons, List.append_assoc, hargs]
    | refused text hfinal hread =>
        apply ReadCase.refused text hfinal
        intro more
        rw [List.append_assoc, read_of_takes htakes]
        exact hread more
  · rcases exists_refusal htakes with ⟨text, hfinal, hread⟩
    apply ReadCase.refused text hfinal
    intro more
    rw [List.append_assoc]
    exact hread (rest ++ more)

theorem take_unknown (hoption : arg.toList.head? = some '-') (hswitch : arg ≠ "--no-render") :
    draft.take arg = .error (.usage ("unknown option '" ++ arg ++ "'")) := by
  rw [take, if_neg hswitch, if_pos hoption]

theorem read_cases (draft : Draft) (args : List String) : draft.ReadCase args := by
  induction draft, args using Draft.read.induct with
  | case1 draft => exact ReadCase.finished [] rfl True.intro
  | case2 draft arg hflag => exact ReadCase.starved [] arg hflag rfl True.intro
  | case3 draft value rest _ ih => exact readCase_args_append (.rate value) ih
  | case4 draft arg hflag value rest hrate ih =>
      rcases hflag with hsame | rfl
      · exact absurd hsame hrate
      · exact readCase_args_append (.limit value) ih
  | case5 draft arg rest hplain ih =>
      by_cases hswitch : arg = "--no-render"
      · rw [hswitch]
        exact readCase_args_append .noRender ih
      · by_cases hoption : arg.toList.head? = some '-'
        · apply ReadCase.refused _ (not_asksForMore_unknown arg)
          intro more
          rw [List.cons_append, read_plain hplain, take_unknown hoption hswitch]
          rfl
        · exact readCase_args_append (.program ⟨arg, hoption⟩) ih

/-!
## The three results
-/

theorem read_spell (h : draft.Admits items) :
    draft.read (spell items) = (draft.addAll items).finish := by
  have hread := read_of_admits h []
  rw [List.append_nil] at hread
  rw [hread, read]

theorem read_spell_append_flag {flag : String} (h : draft.Admits items)
    (hflag : flag = "--hz" ∨ flag = "--cycles") :
    draft.read (spell items ++ [flag]) = .error (.usage (flag ++ " needs a value")) := by
  rw [read_of_admits h, read, if_pos hflag]

end Draft

end Options

end Chip8
