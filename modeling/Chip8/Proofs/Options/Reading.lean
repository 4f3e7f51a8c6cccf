import Chip8.Options

/-!
# Reading options

Arguments are read item by item, an item being an option with the argument behind it or an
argument that stands alone. Each item changes the draft or ends the reading, so what every
item keeps of a draft holds of the options that come out.
-/

namespace Chip8

namespace Options

variable {draft next : Draft} {options : Options} {arg value : String} {rest : List String}

theorem exists_of_bind_ok {α β : Type} {first : Except Error α} {rest : α → Except Error β}
    {result : β} (h : (first >>= rest) = .ok result) :
    exists value, first = .ok value ∧ rest value = .ok result := by
  cases first with
  | error cause => cases h
  | ok value => exact ⟨value, rfl, h⟩

theorem lt_of_readBits? {width n : Nat} (h : Numeral.Decimal.readBits? width value = some n) :
    n < Nat.pow 2 width :=
  of_decide_eq_true (Option.filter_eq_some_iff.mp h).2

theorem readNumber_lt {width n : Nat} {flag : String} (h : readNumber width flag value = .ok n) :
    n < Nat.pow 2 width := by
  unfold readNumber at h
  split at h
  · rename_i number hread
    cases h
    exact lt_of_readBits? hread
  · cases h

namespace Draft

/-!
## Items
-/

def setValue (draft : Draft) (flag value : String) : Except Error Draft :=
  if flag = "--hz" then draft.setRate value else draft.setLimit value

theorem read_flag (hflag : arg = "--hz" ∨ arg = "--cycles") :
    draft.read (arg :: value :: rest) =
      draft.setValue arg value >>= fun next => next.read rest := by
  rw [read, if_pos hflag, setValue]
  split <;> rfl

theorem read_plain (hplain : ¬ (arg = "--hz" ∨ arg = "--cycles")) :
    draft.read (arg :: rest) = draft.take arg >>= fun next => next.read rest := by
  cases rest with
  | nil => rw [read.eq_def]; simp only [if_neg hplain]
  | cons value rest => rw [read.eq_def]; simp only [if_neg hplain]

theorem exists_finish_of_read (property : Draft → Prop)
    (hvalue : forall draft next flag value, property draft ->
      setValue draft flag value = .ok next -> property next)
    (htake : forall draft next arg, property draft -> take draft arg = .ok next -> property next)
    {args : List String} (hdraft : property draft) (h : draft.read args = .ok options) :
    exists last, property last ∧ last.finish = .ok options := by
  induction draft, args using Draft.read.induct with
  | case1 draft => exact ⟨draft, hdraft, h⟩
  | case2 draft arg hflag =>
      rw [read, if_pos hflag] at h
      cases h
  | case3 draft value rest hflag ih =>
      rw [read_flag hflag] at h
      rcases exists_of_bind_ok h with ⟨next, hnext, hrest⟩
      exact ih next (hvalue draft next _ value hdraft hnext) hrest
  | case4 draft arg hflag value rest _ ih =>
      rw [read_flag hflag] at h
      rcases exists_of_bind_ok h with ⟨next, hnext, hrest⟩
      exact ih next (hvalue draft next arg value hdraft hnext) hrest
  | case5 draft arg rest hplain ih =>
      rw [read_plain hplain] at h
      rcases exists_of_bind_ok h with ⟨next, hnext, hrest⟩
      exact ih next (htake draft next arg hdraft hnext) hrest

/-!
## The rate
-/

theorem rate_of_setRate (h : draft.setRate value = .ok next) : next.rate ≠ 0 := by
  rcases exists_of_bind_ok h with ⟨rate, hread, hnext⟩
  have hbelow := readNumber_lt hread
  split at hnext
  · cases hnext
  · rename_i hrate
    cases hnext
    intro hzero
    apply hrate
    exact (UInt32.toNat_ofNat_of_lt' hbelow).symm.trans (congrArg UInt32.toNat hzero)

theorem rate_of_setLimit (h : draft.setLimit value = .ok next) : next.rate = draft.rate := by
  rcases exists_of_bind_ok h with ⟨limit, _, hnext⟩
  cases hnext
  rfl

theorem rate_of_take (h : draft.take arg = .ok next) : next.rate = draft.rate := by
  unfold take at h
  split at h
  · cases h
    rfl
  · split at h
    · cases h
    · split at h
      · cases h
      · cases h
        rfl

theorem rate_of_setValue {flag : String} (hrate : draft.rate ≠ 0)
    (h : draft.setValue flag value = .ok next) : next.rate ≠ 0 := by
  unfold setValue at h
  split at h
  · exact rate_of_setRate h
  · rw [rate_of_setLimit h]
    exact hrate

end Draft

theorem rate_ne_zero_of_parse {args : List String} (h : parse args = .ok options) :
    options.rate ≠ 0 := by
  have hdefault : ({} : Draft).rate ≠ 0 := by decide
  rcases Draft.exists_finish_of_read (fun draft => draft.rate ≠ 0)
      (fun _ _ _ _ hrate hnext => Draft.rate_of_setValue hrate hnext)
      (fun _ _ _ hrate hnext => by rw [Draft.rate_of_take hnext]; exact hrate) hdefault h with
    ⟨last, hrate, hfinish⟩
  unfold Draft.finish at hfinish
  split at hfinish
  · cases hfinish
  · cases hfinish
    exact hrate

end Options

end Chip8
