import Mathlib.Algebra.GroupWithZero.Nat
import Mathlib.Data.Finset.Card
import Mathlib.Data.Finset.Range
import Mathlib.Data.List.TakeWhile
import Rollout.Terminal.Bar

/-!
# What a transfer draws

A bar works out its percentage after every advance and at the end, and is drawn where the percentage is not the
one drawn before. Over a transfer whose advances add up to its total the count of bytes never leaves its 64 bits,
no bar is longer than its room, and each line shows the right percentage, a larger one than the line before. The
percentage is worked out by a product with 100, in 64 bits as well. As long as this product of the total fits,
the last line shows 100 percent at the total; if it does not fit, the drawing breaks off before that.
-/

namespace Rollout.Terminal

namespace Bar

/-! ### Percentages -/

/-- The integer part of the percentage of a total that is done. -/
def wholePercent (done total : Nat) : Nat :=
  if total = 0 then 100 else 100 * done / total

theorem wholePercent_mono {done more : Nat} (grows : done ≤ more) (total : Nat) :
    wholePercent done total ≤ wholePercent more total := by
  unfold wholePercent
  split
  · exact le_rfl
  · exact Nat.div_le_div_right (Nat.mul_le_mul_left 100 grows)

/-- All is done at 100 percent and not before. -/
theorem wholePercent_eq_hundred_iff {done total : Nat} (within : done ≤ total) :
    wholePercent done total = 100 ↔ done = total := by
  unfold wholePercent
  split
  · omega
  next nonzero =>
    have positive : 0 < total := Nat.pos_of_ne_zero nonzero
    rw [Nat.div_eq_iff positive]
    omega

theorem wholePercent_le {done total : Nat} (within : done ≤ total) : wholePercent done total ≤ 100 := by
  have full : wholePercent total total = 100 := (wholePercent_eq_hundred_iff le_rfl).2 rfl
  exact full ▸ wholePercent_mono within total

def percent (bar : Bar) : Nat :=
  wholePercent bar.done.toNat bar.total.toNat

/-- The product that a percentage is worked out by stays within its 64 bits. -/
def Fits (bar : Bar) : Prop :=
  (min bar.done bar.total).toNat * 100 < UInt64.size

instance (bar : Bar) : Decidable bar.Fits :=
  inferInstanceAs (Decidable (_ < _))

section Percent

variable {bar : Bar}

/-- The percentage is worked out right, or not at all. -/
theorem percent?_eq (within : bar.done.toNat ≤ bar.total.toNat) :
    bar.percent? = if bar.Fits then some bar.percent else none := by
  have least : (min bar.done bar.total).toNat = bar.done.toNat := by
    rw [UInt64.toNat_min, Nat.min_eq_left within]
  unfold percent? percent wholePercent
  split
  next zero =>
    have fits : bar.Fits := by
      rw [zero] at within
      have untouched : bar.done.toNat = 0 := Nat.le_zero.1 within
      rw [Fits, least, untouched]
      decide
    have empty : bar.total.toNat = 0 := congrArg UInt64.toNat zero
    rw [if_pos fits, if_pos empty]
  next nonzero =>
    have positive : bar.total.toNat ≠ 0 := fun zero => nonzero (UInt64.toNat_inj.1 zero)
    rw [if_neg positive]
    by_cases fits : bar.Fits
    · have bound : (min bar.done bar.total).toNat * (100 : UInt64).toNat < UInt64.size := fits
      rw [if_pos fits, product?, if_pos bound, Option.map_some, UInt64.toNat_div, UInt64.toNat_mul,
        Nat.mod_eq_of_lt bound, least, Nat.mul_comm]
      rfl
    · have beyond : ¬ (min bar.done bar.total).toNat * (100 : UInt64).toNat < UInt64.size := fits
      rw [if_neg fits, product?, if_neg beyond, Option.map_none]

/-- No bar is longer than its room. -/
theorem filled_le (within : bar.done.toNat ≤ bar.total.toNat) : filled bar.percent ≤ width := by
  have most : bar.percent ≤ 100 := wholePercent_le within
  unfold filled width
  omega

end Percent

/-! ### The moments of a transfer -/

def line (bar : Bar) : String :=
  restart ++ bar.text bar.percent

def received (bar : Bar) (bytes : UInt64) : Bar :=
  { bar with done := bar.done + bytes }

def drawn (bar : Bar) : Bar :=
  { bar with shown := some bar.percent }

/-- The bars whose percentage is to be worked out, each before it is drawn: after every advance, and at the end. -/
def moments (bar : Bar) : List UInt64 → List Bar
  | [] => [bar]
  | bytes :: rest => bar.received bytes :: moments (bar.received bytes).drawn rest

/-- The percentage that was drawn last is not that of the bar. -/
def Changed (bar : Bar) : Prop :=
  bar.shown ≠ some bar.percent

instance (bar : Bar) : Decidable bar.Changed :=
  inferInstanceAs (Decidable (_ ≠ _))

/-- The bars that are drawn: up to the first whose product does not fit, those whose percentage changed. -/
def drawings (bar : Bar) (advances : List UInt64) : List Bar :=
  ((bar.moments advances).takeWhile fun moment => moment.Fits).filter fun moment => moment.Changed

section Moments

variable (bar : Bar) (bytes : UInt64) (advances : List UInt64)

theorem length_moments : (bar.moments advances).length = advances.length + 1 := by
  induction advances generalizing bar with
  | nil => rfl
  | cons bytes rest ih => rw [moments, List.length_cons, ih, List.length_cons]

/-- What a bar that is left as it is draws is what it draws anew, with the last percentage again. -/
theorem draw_eq (within : bar.done.toNat ≤ bar.total.toNat) :
    bar.draw = if bar.Fits then some (bar.drawn, if bar.Changed then bar.line else "") else none := by
  rw [draw, percent?_eq within]
  split
  · rw [Option.map_some]
    by_cases same : bar.shown = some bar.percent
    · have still : bar.drawn = bar := by rw [drawn, ← same]
      simp [Changed, same, still]
    · simp [Changed, same, drawn, line]
  · rfl

theorem advance_eq (within : bar.done.toNat + bytes.toNat ≤ bar.total.toNat) :
    bar.advance bytes = (bar.received bytes).draw := by
  have fits : bar.done.toNat + bytes.toNat < UInt64.size := Nat.lt_of_le_of_lt within bar.total.toNat_lt
  rw [advance, sum?, if_pos fits]
  rfl

end Moments

/-! ### The bytes done -/

section Counting

variable {bar moment : Bar} {advances : List UInt64}

theorem received_done {bytes : UInt64} (within : bar.done.toNat + bytes.toNat ≤ bar.total.toNat) :
    (bar.received bytes).done.toNat = bar.done.toNat + bytes.toNat := by
  rw [received, UInt64.toNat_add, Nat.mod_eq_of_lt (Nat.lt_of_le_of_lt within bar.total.toNat_lt)]

variable (whole : bar.done.toNat + (advances.map UInt64.toNat).sum ≤ bar.total.toNat)
include whole

/-- As long as the advances add up to no more than the total, every moment has the bytes received by then. -/
theorem done_of_getElem? {k : Nat} (found : (bar.moments advances)[k]? = some moment) :
    moment.total = bar.total ∧
      moment.done.toNat = bar.done.toNat + ((advances.take (k + 1)).map UInt64.toNat).sum := by
  induction advances generalizing bar k with
  | nil =>
    obtain rfl : bar = moment := by
      cases k with
      | zero => exact Option.some.inj found
      | succ k => cases found
    simp
  | cons bytes rest ih =>
    rw [List.map_cons, List.sum_cons] at whole
    have received : (bar.received bytes).done.toNat = bar.done.toNat + bytes.toNat := received_done (by omega)
    cases k with
    | zero =>
      obtain rfl := Option.some.inj found
      exact ⟨rfl, by simpa using received⟩
    | succ k =>
      have later : (bar.received bytes).drawn.done.toNat + (rest.map UInt64.toNat).sum ≤ bar.total.toNat := by
        rw [drawn, received]
        omega
      obtain ⟨total, done⟩ := ih later found
      refine ⟨total, ?_⟩
      rw [done, drawn, received, List.take_succ_cons, List.map_cons, List.sum_cons]
      omega

theorem done_of_mem (member : moment ∈ bar.moments advances) : moment.total = bar.total ∧
    bar.done.toNat ≤ moment.done.toNat ∧ moment.done.toNat ≤ moment.total.toNat := by
  obtain ⟨k, found⟩ := List.getElem?_of_mem member
  obtain ⟨total, done⟩ := done_of_getElem? whole found
  have split := congrArg List.sum (congrArg (List.map UInt64.toNat) (List.take_append_drop (k + 1) advances))
  rw [List.map_append, List.sum_append] at split
  rw [total]
  exact ⟨rfl, by omega, by omega⟩

/-- The last moment has all bytes. -/
theorem exists_last : ∃ final, (bar.moments advances).getLast? = some final ∧ final.total = bar.total ∧
    final.done.toNat = bar.done.toNat + (advances.map UInt64.toNat).sum := by
  have positive : bar.moments advances ≠ [] := by
    intro broken
    simpa [broken] using length_moments bar advances
  refine ⟨_, List.getLast?_eq_some_getLast positive, ?_⟩
  have found := List.getLast?_eq_some_getLast positive
  rw [List.getLast?_eq_getElem?, length_moments, Nat.add_sub_cancel] at found
  have last := done_of_getElem? whole found
  rwa [List.take_of_length_le (Nat.le_succ _)] at last

/-- From moment to moment there are never fewer bytes. -/
theorem pairwise_done :
    (bar.moments advances).Pairwise fun before after => before.done.toNat ≤ after.done.toNat := by
  induction advances generalizing bar with
  | nil => exact List.pairwise_singleton _ _
  | cons bytes rest ih =>
    rw [List.map_cons, List.sum_cons] at whole
    have later : (bar.received bytes).drawn.done.toNat + (rest.map UInt64.toNat).sum ≤ bar.total.toNat := by
      rw [drawn, received_done (by omega)]
      omega
    exact List.pairwise_cons.2 ⟨fun moment member => (done_of_mem later member).2.1, ih later⟩

/-- What is drawn is the lines in their order. It breaks off where a product does not fit. -/
theorem drawAll_spec :
    let shown := bar.drawAll true advances
    (shown.brokeOff = false ↔ ∀ moment ∈ bar.moments advances, moment.Fits) ∧
      shown.text = String.join ((bar.drawings advances).map line) ++ if shown.brokeOff then "" else "\n" := by
  induction advances generalizing bar with
  | nil =>
    have within : bar.done.toNat ≤ bar.total.toNat := by simpa using whole
    rw [drawAll, if_pos rfl, finish, draw_eq bar within]
    by_cases fits : bar.Fits <;> by_cases changed : bar.Changed <;>
      simp [drawings, moments, fits, changed]
  | cons bytes rest ih =>
    rw [List.map_cons, List.sum_cons] at whole
    let first := bar.received bytes
    have received : first.done.toNat = bar.done.toNat + bytes.toNat := received_done (by omega)
    have within : first.done.toNat ≤ first.total.toNat := by
      rw [received]
      exact Nat.le_trans (Nat.le_add_right _ _) (Nat.add_assoc .. ▸ whole)
    have later : first.drawn.done.toNat + (rest.map UInt64.toNat).sum ≤ first.drawn.total.toNat := by
      rw [drawn, received]
      exact Nat.add_assoc .. ▸ whole
    obtain ⟨onward, lines⟩ := ih later
    have all : bar.moments (bytes :: rest) = first :: first.drawn.moments rest := rfl
    rw [drawAll, advance_eq bar bytes (by omega), draw_eq first within]
    by_cases fits : first.Fits
    · rw [if_pos fits]
      by_cases changed : first.Changed <;>
        simp [Drawing.after, drawings, all, fits, changed, onward, lines, String.append_assoc]
    · simp [drawings, all, fits]

end Counting

/-! ### The lines of a transfer -/

section Lines

variable {bar : Bar} {advances : List UInt64}

/-- What is drawn last shows the percentage that was to be worked out last. -/
theorem percent_last (bar : Bar) (advances : List UInt64) :
    (((bar.moments advances).filter fun moment => moment.Changed).getLast?.map percent).or bar.shown =
      (bar.moments advances).getLast?.map percent := by
  induction advances generalizing bar with
  | nil =>
    by_cases same : bar.shown = some bar.percent <;> simp [moments, Changed, same]
  | cons bytes rest ih =>
    let first := bar.received bytes
    have later : bar.moments (bytes :: rest) = [first] ++ first.drawn.moments rest := rfl
    have shown : first.drawn.shown = some first.percent := rfl
    have onward := ih first.drawn
    rw [shown] at onward
    have here : (([first].filter fun moment => moment.Changed).getLast?.map percent).or bar.shown =
        some first.percent := by
      have kept : first.shown = bar.shown := rfl
      by_cases same : bar.shown = some first.percent <;> simp [Changed, kept, same]
    rw [later, List.filter_append, List.getLast?_append, List.getLast?_append, Option.map_or, Option.or_assoc, here,
      Option.map_or, ← onward, Option.or_assoc]
    rfl

theorem lt_of_not_shown {shown : Option Nat} {last percent : Nat} (drawn : last ∈ shown)
    (differs : shown ≠ some percent) (atMost : last ≤ percent) : last < percent := by
  apply lt_of_le_of_ne atMost
  rintro rfl
  exact differs drawn

/-- Where percentages never fall, each that changed is larger than the one that changed before. -/
theorem increasing_of_rising
    (rising : (bar.moments advances).Pairwise fun before after => before.percent ≤ after.percent)
    (behind : ∀ last ∈ bar.shown, ∀ moment ∈ bar.moments advances, last ≤ moment.percent) :
    (((bar.moments advances).filter fun moment => moment.Changed).map percent).Pairwise (· < ·) ∧
      ∀ last ∈ bar.shown, ∀ moment ∈ bar.moments advances, moment.Changed → last < moment.percent := by
  induction advances generalizing bar with
  | nil =>
    refine ⟨?_, fun last drawn moment member changed => ?_⟩
    · by_cases changed : bar.Changed <;> simp [moments, changed]
    · obtain rfl := List.mem_singleton.1 member
      exact lt_of_not_shown drawn changed (behind last drawn moment member)
  | cons bytes rest ih =>
    let first := bar.received bytes
    have kept : first.shown = bar.shown := rfl
    obtain ⟨least, risesOn⟩ := List.pairwise_cons.1 rising
    have behindFirst : ∀ last ∈ first.drawn.shown, ∀ moment ∈ first.drawn.moments rest, last ≤ moment.percent := by
      intro last drawn
      cases drawn
      exact least
    obtain ⟨increases, above⟩ := ih risesOn behindFirst
    have aboveFirst := above first.percent rfl
    rw [moments]
    by_cases changed : first.Changed
    · rw [List.filter_cons_of_pos (by simpa using changed), List.map_cons, List.pairwise_cons]
      refine ⟨⟨?_, increases⟩, fun last drawn => ?_⟩
      · refine List.forall_mem_map.2 fun moment member => ?_
        obtain ⟨later, differs⟩ := List.mem_filter.1 member
        exact aboveFirst moment later (by simpa using differs)
      · have below : last < first.percent :=
          lt_of_not_shown drawn (kept ▸ changed) (behind last drawn first List.mem_cons_self)
        exact List.forall_mem_cons.2 ⟨fun _ => below, fun moment later differs =>
          below.trans (aboveFirst moment later differs)⟩
    -- A bar that is not drawn again stands at the percentage drawn last, so what is above the one is above the other.
    · have same : bar.shown = some first.percent := not_not.1 changed
      rw [List.filter_cons_of_neg (by simpa using changed)]
      refine ⟨increases, fun last drawn => ?_⟩
      rw [same] at drawn
      cases drawn
      exact List.forall_mem_cons.2 ⟨fun differs => absurd differs changed, aboveFirst⟩

/-- Numbers up to a bound that increase are at most one more than the bound. -/
theorem length_le_of_increasing {numbers : List Nat} (increasing : numbers.Pairwise (· < ·)) {bound : Nat}
    (bounded : ∀ number ∈ numbers, number ≤ bound) : numbers.length ≤ bound + 1 := by
  have distinct : numbers.Nodup := increasing.imp Nat.ne_of_lt
  have among : numbers.toFinset ⊆ Finset.range (bound + 1) := by
    intro number member
    exact Finset.mem_range.2 (Nat.lt_succ_of_le (bounded number (List.mem_toFinset.1 member)))
  calc numbers.length = numbers.toFinset.card := (List.toFinset_card_of_nodup distinct).symm
    _ ≤ (Finset.range (bound + 1)).card := Finset.card_le_card among
    _ = bound + 1 := Finset.card_range _

end Lines

/-! ### Whole transfers -/

/-- The last line that is drawn shows 100 percent, with all bytes done. -/
def EndsFull (bar : Bar) (advances : List UInt64) : Prop :=
  ∃ drawing, (bar.drawings advances).getLast? = some drawing ∧ drawing.percent = 100 ∧ drawing.done = drawing.total

section Whole

variable {bar moment drawing : Bar} {advances : List UInt64}

theorem mem_moments_of_drawings (member : drawing ∈ bar.drawings advances) : drawing ∈ bar.moments advances :=
  (List.takeWhile_sublist _).subset (List.mem_filter.1 member).1

/-- Whatever is drawn, no product of it left its 64 bits. -/
theorem fits_of_drawings (member : drawing ∈ bar.drawings advances) : drawing.Fits := by
  have passed := List.mem_takeWhile_imp (List.mem_filter.1 member).1
  exact of_decide_eq_true passed

/-- Where every product fits, every bar is drawn whose percentage changed. -/
theorem drawings_of_fits (fit : ∀ moment ∈ bar.moments advances, moment.Fits) :
    bar.drawings advances = (bar.moments advances).filter fun moment => moment.Changed := by
  have passed : ∀ moment ∈ bar.moments advances, decide moment.Fits = true :=
    fun moment member => decide_eq_true (fit moment member)
  rw [drawings, List.takeWhile_eq_self_iff.2 passed]

variable (whole : bar.done.toNat + (advances.map UInt64.toNat).sum = bar.total.toNat)
include whole

theorem moment_fits_iff (member : moment ∈ bar.moments advances) :
    moment.Fits ↔ moment.done.toNat * 100 < UInt64.size := by
  obtain ⟨-, -, within⟩ := done_of_mem whole.le member
  rw [Fits, UInt64.toNat_min, Nat.min_eq_left within]

/-- The products of all moments fit just if the product of the total does. -/
theorem fit_iff : (∀ moment ∈ bar.moments advances, moment.Fits) ↔ bar.total.toNat * 100 < UInt64.size := by
  obtain ⟨final, last, total, done⟩ := exists_last whole.le
  constructor
  · intro fit
    have member := List.mem_of_getLast? last
    have fits := (moment_fits_iff whole member).1 (fit final member)
    rwa [done, whole] at fits
  · intro product moment member
    obtain ⟨total, -, within⟩ := done_of_mem whole.le member
    rw [moment_fits_iff whole member]
    rw [total] at within
    omega

/-- Percentages that are drawn increase, whether the drawing breaks off or not. -/
theorem increasing_drawings (fresh : bar.shown = none) :
    ((bar.drawings advances).map percent).Pairwise (· < ·) := by
  have rising : (bar.moments advances).Pairwise fun before after => before.percent ≤ after.percent := by
    apply (pairwise_done whole.le).imp_of_mem
    intro before after memberBefore memberAfter grows
    rw [percent, percent, (done_of_mem whole.le memberBefore).1, (done_of_mem whole.le memberAfter).1]
    exact wholePercent_mono grows _
  have all := (increasing_of_rising rising (by simp [fresh])).1
  exact all.sublist (((List.takeWhile_sublist _).filter _).map _)

theorem percent_le_of_mem (member : moment ∈ bar.moments advances) : moment.percent ≤ 100 :=
  wholePercent_le (done_of_mem whole.le member).2.2

theorem length_drawings_le (fresh : bar.shown = none) : (bar.drawings advances).length ≤ 101 := by
  rw [← List.length_map percent]
  refine length_le_of_increasing (increasing_drawings whole fresh) (List.forall_mem_map.2 fun drawing member => ?_)
  exact percent_le_of_mem whole (mem_moments_of_drawings member)

/-- The last line is full just if the product of the total fits. -/
theorem endsFull_iff (fresh : bar.shown = none) : bar.EndsFull advances ↔ bar.total.toNat * 100 < UInt64.size := by
  constructor
  · rintro ⟨drawing, drawn, -, complete⟩
    have among := List.mem_of_getLast? drawn
    have member := mem_moments_of_drawings among
    have fits := (moment_fits_iff whole member).1 (fits_of_drawings among)
    rwa [complete, (done_of_mem whole.le member).1] at fits
  · intro product
    obtain ⟨final, last, total, done⟩ := exists_last whole.le
    have shows := percent_last bar advances
    rw [fresh, Option.or_none, last, ← drawings_of_fits ((fit_iff whole).2 product)] at shows
    obtain ⟨drawing, drawn, same⟩ := Option.map_eq_some_iff.1 shows
    have all : final.done.toNat = final.total.toNat := by rw [done, whole, total]
    have full : drawing.percent = 100 := same.trans ((wholePercent_eq_hundred_iff all.le).2 all)
    have member := mem_moments_of_drawings (List.mem_of_getLast? drawn)
    have complete := (wholePercent_eq_hundred_iff (done_of_mem whole.le member).2.2).1 full
    exact ⟨drawing, drawn, full, UInt64.toNat_inj.1 complete⟩

end Whole

/-- What is drawn of a transfer whose advances add up to its total. At every moment the count of bytes is the sum of
the advances so far, the percentage is at most 100, and the bar is no longer than its room. What is shown is one line
for each moment with a percentage that was not drawn before, up to the first moment whose product with 100 leaves its
64 bits; the lines have increasing percentages, so that they are at most 101. The drawing does not break off, and the
last line is full, exactly if the product of the total with 100 fits in 64 bits. -/
theorem transfer_drawn_iff (label : String) (total : UInt64) (advances : List UInt64)
    (whole : (advances.map UInt64.toNat).sum = total.toNat) :
    let start : Bar := { label, total }
    let shown := drawing label total advances true
    (∀ k moment, (start.moments advances)[k]? = some moment → moment.total = total ∧
        moment.done.toNat = ((advances.take (k + 1)).map UInt64.toNat).sum ∧
        moment.percent ≤ 100 ∧ filled moment.percent ≤ width) ∧
      shown.text = String.join ((start.drawings advances).map line) ++ (if shown.brokeOff then "" else "\n") ∧
      ((start.drawings advances).map percent).Pairwise (· < ·) ∧ (start.drawings advances).length ≤ 101 ∧
      (shown.brokeOff = false ↔ total.toNat * 100 < UInt64.size) ∧
      (start.EndsFull advances ↔ total.toNat * 100 < UInt64.size) := by
  intro start shown
  have untouched : start.done.toNat = 0 := rfl
  have all : start.done.toNat + (advances.map UInt64.toNat).sum = start.total.toNat := by
    rw [untouched, Nat.zero_add]
    exact whole
  obtain ⟨unbroken, lines⟩ := drawAll_spec all.le
  refine ⟨fun k moment found => ?_, lines, increasing_drawings all rfl, length_drawings_le all rfl,
    unbroken.trans (fit_iff all), endsFull_iff all rfl⟩
  · obtain ⟨same, done⟩ := done_of_getElem? all.le found
    rw [untouched, Nat.zero_add] at done
    have member := List.mem_of_getElem? found
    exact ⟨same, done, percent_le_of_mem all member, filled_le (done_of_mem all.le member).2.2⟩

/-- The largest total whose product fits. -/
theorem transfer_drawn_largest :
    let start : Bar := { label := "f", total := 184467440737095516 }
    let advances : List UInt64 := [92233720368547758, 0, 92233720368547758]
    (advances.map UInt64.toNat).sum = start.total.toNat ∧
      (drawing "f" 184467440737095516 advances true).brokeOff = false ∧ start.EndsFull advances := by
  obtain ⟨-, -, -, -, whole, full⟩ := transfer_drawn_iff "f" 184467440737095516
    [92233720368547758, 0, 92233720368547758] (by decide)
  exact ⟨by decide, whole.2 (by decide), full.2 (by decide)⟩

/-- With one byte more the drawing breaks off when all is done, with the bar at a half. -/
theorem large_transfer_breaks_off :
    let start : Bar := { label := "f", total := 184467440737095517 }
    let advances : List UInt64 := [92233720368547759, 92233720368547758]
    (advances.map UInt64.toNat).sum = start.total.toNat ∧
      (drawing "f" 184467440737095517 advances true).brokeOff = true ∧
      (start.drawings advances).map (fun drawing => (drawing.percent, drawing.done)) =
        [(50, 92233720368547759)] ∧
      ¬ start.EndsFull advances := by
  intro start advances
  have lines : start.drawings advances = [start.received 92233720368547759] := by decide
  refine ⟨by decide, by decide, by decide, ?_⟩
  rintro ⟨drawing, last, -, complete⟩
  rw [lines] at last
  cases last
  revert complete
  decide

end Bar

end Rollout.Terminal
