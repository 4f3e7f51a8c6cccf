import Chip8.Proofs.Options.Items

/-!
# The grammar of a command line

Arguments are accepted if they are items, each of them valid, and one program is named. The
options are then the program, the last rate and the last limit that are asked for, and
whether the switch is absent. Items of different kinds may therefore change places.
-/

namespace Chip8

namespace Options

open Item

variable {items other : List Item} {options : Options} {value : String}

structure Describes (items : List Item) (options : Options) : Prop where
  program : programs items = [options.program]
  rate : options.rate.toNat =
    ((rates items).getLast?.bind (Numeral.Decimal.readBits? 32)).getD 60
  limit : options.limit.map UInt64.toNat =
    (limits items).getLast?.bind (Numeral.Decimal.readBits? 64)
  render : options.render = true ↔ Item.noRender ∉ items

theorem rate_mem_of_mem_rates (h : value ∈ rates items) : .rate value ∈ items := by
  rcases List.mem_filterMap.mp h with ⟨item, hmem, hrate⟩
  cases item with
  | rate _ =>
      cases hrate
      exact hmem
  | limit _ | noRender | program _ => cases hrate

theorem limit_mem_of_mem_limits (h : value ∈ limits items) : .limit value ∈ items := by
  rcases List.mem_filterMap.mp h with ⟨item, hmem, hlimit⟩
  cases item with
  | limit _ =>
      cases hlimit
      exact hmem
  | rate _ | noRender | program _ => cases hlimit

/-!
## What the items leave
-/

namespace Draft

theorem part_addAll {α : Type} (part : Draft → α) (pick : Item → Option String)
    (set : String → α)
    (hadd : forall draft item, part (add draft item) = ((pick item).map set).getD (part draft))
    (draft : Draft) (items : List Item) :
    part (draft.addAll items) =
      ((items.filterMap pick).getLast?.map set).getD (part draft) := by
  induction items generalizing draft with
  | nil => rfl
  | cons item items ih =>
      show part ((draft.add item).addAll items) = _
      rw [ih, hadd]
      cases hpick : pick item with
      | none =>
          rw [List.filterMap_cons_none hpick]
          rfl
      | some text =>
          rw [List.filterMap_cons_some hpick, List.getLast?_cons]
          cases (items.filterMap pick).getLast? with
          | none => rfl
          | some last => rfl

theorem program_addAll (items : List Item) :
    (addAll {} items).program = (programs items).getLast? := by
  have hlast := part_addAll Draft.program program? some
    (fun draft item => by cases item <;> rfl) {} items
  rw [hlast, programs]
  cases (items.filterMap program?).getLast? with
  | none => rfl
  | some path => rfl

theorem rate_addAll (hvalid : ∀ item ∈ items, item.Valid) :
    (addAll {} items).rate.toNat =
      ((rates items).getLast?.bind (Numeral.Decimal.readBits? 32)).getD 60 := by
  have hlast := part_addAll Draft.rate rate?
    (fun value => UInt32.ofNat ((Numeral.Decimal.readBits? 32 value).getD 0))
    (fun draft item => by cases item <;> rfl) {} items
  rw [hlast, ← rates]
  cases hvalue : (rates items).getLast? with
  | none => rfl
  | some value =>
      rcases hvalid _ (rate_mem_of_mem_rates (List.mem_of_getLast? hvalue)) with ⟨n, hread, _⟩
      simp only [Option.map_some, Option.bind_some, Option.getD_some, hread]
      exact UInt32.toNat_ofNat_of_lt' (lt_of_readBits? hread)

theorem limit_addAll (hvalid : ∀ item ∈ items, item.Valid) :
    (addAll {} items).limit.map UInt64.toNat =
      (limits items).getLast?.bind (Numeral.Decimal.readBits? 64) := by
  have hlast := part_addAll Draft.limit limit?
    (fun value => (Numeral.Decimal.readBits? 64 value).map UInt64.ofNat)
    (fun draft item => by cases item <;> rfl) {} items
  rw [hlast, ← limits]
  cases hvalue : (limits items).getLast? with
  | none => rfl
  | some value =>
      rcases hvalid _ (limit_mem_of_mem_limits (List.mem_of_getLast? hvalue)) with ⟨n, hread⟩
      simp only [Option.map_some, Option.bind_some, Option.getD_some, hread]
      exact congrArg some (UInt64.toNat_ofNat_of_lt' (lt_of_readBits? hread))

theorem render_addAll (draft : Draft) (items : List Item) :
    (draft.addAll items).render = true ↔ draft.render = true ∧ Item.noRender ∉ items := by
  induction items generalizing draft with
  | nil => simp only [addAll, List.foldl_nil, List.not_mem_nil, not_false_eq_true, and_true]
  | cons item items ih =>
      show ((draft.add item).addAll items).render = true ↔ _
      rw [ih, List.mem_cons, not_or]
      cases item with
      | noRender =>
          simp only [add, Bool.false_eq_true, false_and, not_true_eq_false, and_false]
      | rate _ | limit _ | program _ =>
          simp only [add, reduceCtorEq, not_false_eq_true, true_and]

theorem finish_eq_ok_iff {draft : Draft} :
    draft.finish = .ok options ↔
      draft.program = some options.program ∧ draft.rate = options.rate ∧
        draft.limit = options.limit ∧ draft.render = options.render := by
  rcases draft with ⟨named, rate, limit, render⟩
  rcases options with ⟨program, optionRate, optionLimit, optionRender⟩
  cases named with
  | none => simp only [finish, reduceCtorEq, false_and]
  | some text => simp only [finish, Except.ok.injEq, Options.mk.injEq, Option.some.injEq]

theorem finish_eq_error_iff {draft : Draft} {cause : Error} :
    draft.finish = .error cause ↔
      draft.program = none ∧ cause = .usage "missing ROM path" := by
  rcases draft with ⟨named, rate, limit, render⟩
  cases named with
  | none => simp only [finish, Except.error.injEq, true_and, eq_comm]
  | some text => simp only [finish, reduceCtorEq, false_and]

theorem admits_start_iff :
    ({} : Draft).Admits items ↔
      (∀ item ∈ items, item.Valid) ∧ (programs items).length ≤ 1 := by
  rw [admits_iff, Option.toList_none, List.length_nil, Nat.zero_add]

/-!
## The options that are left at the end
-/

theorem getLast?_programs_iff {program : String} (hcount : (programs items).length ≤ 1) :
    (programs items).getLast? = some program ↔ programs items = [program] := by
  constructor
  · intro hlast
    rcases List.length_eq_one_iff.mp (Nat.le_antisymm hcount
      (List.length_pos_of_mem (List.mem_of_getLast? hlast))) with ⟨only, honly⟩
    rw [honly] at hlast
    cases hlast
    exact honly
  · intro hprograms
    rw [hprograms]
    rfl

theorem finish_addAll_eq_ok_iff (hvalid : ∀ item ∈ items, item.Valid)
    (hcount : (programs items).length ≤ 1) :
    (addAll {} items).finish = .ok options ↔ Describes items options := by
  rw [finish_eq_ok_iff, program_addAll, getLast?_programs_iff hcount]
  have hrender : (addAll {} items).render = true ↔ Item.noRender ∉ items := by
    rw [render_addAll]
    exact and_iff_right rfl
  constructor
  · intro h
    rcases h with ⟨hprogram, hrate, hlimit, hrenders⟩
    constructor
    case program => exact hprogram
    case rate => rw [← hrate, rate_addAll hvalid]
    case limit => rw [← hlimit, limit_addAll hvalid]
    case render => rw [← hrenders, hrender]
  · intro h
    refine ⟨h.program, ?_, ?_, ?_⟩
    · apply UInt32.toNat.inj
      rw [rate_addAll hvalid, h.rate]
    · apply (Option.map_inj_right fun _ _ => UInt64.toNat_inj.mp).mp
      rw [limit_addAll hvalid, h.limit]
    · rw [Bool.eq_iff_iff, hrender, h.render]

end Draft

/-!
## The whole of the arguments
-/

theorem parse_spell (h : ({} : Draft).Admits items) :
    parse (spell items) = (Draft.addAll {} items).finish :=
  Draft.read_spell h

theorem parse_spell_append_flag {flag : String} (h : ({} : Draft).Admits items)
    (hflag : flag = "--hz" ∨ flag = "--cycles") :
    parse (spell items ++ [flag]) = .error (.usage (flag ++ " needs a value")) :=
  Draft.read_spell_append_flag h hflag

theorem parse_of_refused {args : List String} {text : String}
    (hread : forall more, Draft.read {} (args ++ more) = .error (.usage text)) :
    parse args = .error (.usage text) := by
  have hrefused := hread []
  rw [List.append_nil] at hrefused
  exact hrefused

theorem parse_eq_ok_iff {args : List String} :
    parse args = .ok options ↔
      exists items, spell items = args ∧ (∀ item ∈ items, item.Valid) ∧
        Describes items options := by
  constructor
  · intro h
    cases Draft.read_cases {} args with
    | finished items hargs hadmits =>
        rw [← hargs, parse_spell hadmits] at h
        rcases Draft.admits_start_iff.mp hadmits with ⟨hvalid, hcount⟩
        exact ⟨items, hargs, hvalid, (Draft.finish_addAll_eq_ok_iff hvalid hcount).mp h⟩
    | starved items flag hflag hargs hadmits =>
        rw [← hargs, parse_spell_append_flag hadmits hflag] at h
        cases h
    | refused text hfinal hread =>
        rw [parse_of_refused hread] at h
        cases h
  · intro h
    rcases h with ⟨items, rfl, hvalid, hdescribes⟩
    have hcount : (programs items).length ≤ 1 := by
      rw [hdescribes.program]
      exact Nat.le_refl 1
    rw [parse_spell (Draft.admits_start_iff.mpr ⟨hvalid, hcount⟩)]
    exact (Draft.finish_addAll_eq_ok_iff hvalid hcount).mpr hdescribes

theorem parse_spell_eq_ok_iff :
    parse (spell items) = .ok options ↔
      (∀ item ∈ items, item.Valid) ∧ Describes items options := by
  rw [parse_eq_ok_iff]
  constructor
  · intro h
    rcases h with ⟨read, hargs, hvalid, hdescribes⟩
    rw [spell_inj hargs] at hvalid hdescribes
    exact ⟨hvalid, hdescribes⟩
  · intro h
    exact ⟨items, rfl, h⟩

theorem exists_describes (hvalid : ∀ item ∈ items, item.Valid)
    (hcount : (programs items).length = 1) : exists options, Describes items options := by
  rcases List.length_eq_one_iff.mp hcount with ⟨program, hprogram⟩
  have hnamed : (Draft.addAll {} items).program = some program := by
    rw [Draft.program_addAll, hprogram]
    rfl
  have hfinish : exists options, (Draft.addAll {} items).finish = .ok options := by
    simp only [Draft.finish, hnamed]
    exact ⟨_, rfl⟩
  rcases hfinish with ⟨options, hoptions⟩
  exact ⟨options, (Draft.finish_addAll_eq_ok_iff hvalid (Nat.le_of_eq hcount)).mp hoptions⟩

theorem usage_of_parse_error {args : List String} {cause : Error}
    (h : parse args = .error cause) : exists text, cause = .usage text := by
  cases Draft.read_cases {} args with
  | finished items hargs hadmits =>
      rw [← hargs, parse_spell hadmits, Draft.finish_eq_error_iff] at h
      exact ⟨_, h.2⟩
  | starved items flag hflag hargs hadmits =>
      rw [← hargs, parse_spell_append_flag hadmits hflag] at h
      cases h
      exact ⟨_, rfl⟩
  | refused text hfinal hread =>
      rw [parse_of_refused hread] at h
      cases h
      exact ⟨text, rfl⟩

/-!
## Items in another order
-/

inductive Kind where
  | rate
  | limit
  | noRender
  | program
  deriving DecidableEq, Repr

def Item.kind : Item → Kind
  | .rate _ => .rate
  | .limit _ => .limit
  | .noRender => .noRender
  | .program _ => .program

/-- The items in another order, in which those of one kind keep theirs. -/
def Reordered (items other : List Item) : Prop :=
  forall kind, (items.filter fun item => item.kind = kind) =
    other.filter fun item => item.kind = kind

theorem Reordered.symm (h : Reordered items other) : Reordered other items :=
  fun kind => (h kind).symm

theorem Reordered.mem_iff (h : Reordered items other) (item : Item) :
    item ∈ items ↔ item ∈ other := by
  have hfilter : forall list : List Item,
      item ∈ list ↔ item ∈ list.filter fun next => next.kind = item.kind := by
    intro list
    rw [List.mem_filter]
    exact (and_iff_left (decide_eq_true rfl)).symm
  rw [hfilter items, h item.kind, ← hfilter other]

theorem Reordered.filterMap_eq {α : Type} {pick : Item → Option α}
    (h : Reordered items other) (kind : Kind)
    (hpick : forall item, item.kind ≠ kind -> pick item = none) :
    items.filterMap pick = other.filterMap pick := by
  have hfilter : forall list : List Item,
      (list.filter fun item => item.kind = kind).filterMap pick = list.filterMap pick := by
    intro list
    rw [List.filterMap_filter]
    congr
    funext item
    by_cases hkind : item.kind = kind
    · rw [if_pos (decide_eq_true hkind)]
    · rw [if_neg (mt of_decide_eq_true hkind), hpick item hkind]
  rw [← hfilter items, h kind, hfilter other]

theorem Reordered.rates_eq (h : Reordered items other) : rates items = rates other := by
  apply h.filterMap_eq .rate
  intro item hkind
  cases item with
  | rate _ => exact absurd rfl hkind
  | limit _ | noRender | program _ => rfl

theorem Reordered.limits_eq (h : Reordered items other) : limits items = limits other := by
  apply h.filterMap_eq .limit
  intro item hkind
  cases item with
  | limit _ => exact absurd rfl hkind
  | rate _ | noRender | program _ => rfl

theorem Reordered.programs_eq (h : Reordered items other) :
    programs items = programs other := by
  apply h.filterMap_eq .program
  intro item hkind
  cases item with
  | program _ => exact absurd rfl hkind
  | rate _ | limit _ | noRender => rfl

theorem Reordered.parse_spell_eq_ok (h : Reordered items other)
    (hparse : parse (spell items) = .ok options) : parse (spell other) = .ok options := by
  rcases parse_spell_eq_ok_iff.mp hparse with ⟨hvalid, hdescribes⟩
  apply parse_spell_eq_ok_iff.mpr
  constructor
  · intro item hmem
    exact hvalid item ((h.mem_iff item).mpr hmem)
  · constructor
    case program => rw [← h.programs_eq, hdescribes.program]
    case rate => rw [← h.rates_eq, hdescribes.rate]
    case limit => rw [← h.limits_eq, hdescribes.limit]
    case render => rw [← h.mem_iff, hdescribes.render]

/-- Which arguments are accepted, and as what. They are accepted if they are valid items
and name one program. The options that come out do not depend on how items of different
kinds are mixed, and what is not accepted is a usage error. -/
theorem parse_reads_items (args : List String) :
    ((exists options, parse args = .ok options) ↔
      exists items, spell items = args ∧ (∀ item ∈ items, item.Valid) ∧
        (programs items).length = 1) ∧
    (forall items options, spell items = args -> parse args = .ok options ->
      Describes items options) ∧
    (forall items other options, spell items = args -> Reordered items other ->
      (parse args = .ok options ↔ parse (spell other) = .ok options)) ∧
    forall cause, parse args = .error cause -> exists text, cause = .usage text := by
  refine ⟨?_, ?_, ?_, fun _ herror => usage_of_parse_error herror⟩
  · constructor
    · intro h
      rcases h with ⟨options, hparse⟩
      rcases parse_eq_ok_iff.mp hparse with ⟨items, hargs, hvalid, hdescribes⟩
      refine ⟨items, hargs, hvalid, ?_⟩
      rw [hdescribes.program]
      rfl
    · intro h
      rcases h with ⟨items, hargs, hvalid, hcount⟩
      rcases exists_describes hvalid hcount with ⟨options, hdescribes⟩
      exact ⟨options, parse_eq_ok_iff.mpr ⟨items, hargs, hvalid, hdescribes⟩⟩
  · intro items options hargs hparse
    rw [← hargs] at hparse
    exact (parse_spell_eq_ok_iff.mp hparse).2
  · intro items other options hargs hreordered
    rw [← hargs]
    constructor
    · exact hreordered.parse_spell_eq_ok
    · exact hreordered.symm.parse_spell_eq_ok

theorem parse_later_rate :
    Describes [.rate "500", .program ⟨"pong", by decide⟩, .noRender, .rate "+0250"]
        { program := "pong", rate := 250, render := false } ∧
      parse ["--no-render", "--hz", "500", "--hz", "+0250", "pong"] =
        .ok { program := "pong", rate := 250, render := false } := by
  have hgrammar := parse_reads_items ["--hz", "500", "pong", "--no-render", "--hz", "+0250"]
  constructor
  · exact hgrammar.2.1 _ _ rfl rfl
  · have hreordered :
        Reordered [.rate "500", .program ⟨"pong", by decide⟩, .noRender, .rate "+0250"]
          [.noRender, .rate "500", .rate "+0250", .program ⟨"pong", by decide⟩] := by
      intro kind
      cases kind <;> rfl
    exact (hgrammar.2.2.1 _ _ _ rfl hreordered).mp rfl

end Options

end Chip8
