import Artha.Sales.RawMaterials

/-!
# Which counters stop

From `endTime` on `remaining` is zero (`remaining_eq_zero`), and `run` computes the rounded target.
The timer is cleared when this is the target itself: a counter stops exactly if its target is an
integer, and its range has not overflowed, since zero times infinity is `NaN`.
-/

namespace Artha.Sales.RawMaterials

open Binary64 JavaScript

/-! ### The value of a run -/

theorem remaining_eq_zero {endTime : Number} {duration : ℚ} {now : ℤ} (hduration : 0 < duration)
    (hlate : Number.le endTime (.finite now)) :
    Number.max (.div (.sub endTime (.finite now)) (.finite duration)) (.finite 0) = .finite 0 :=
  Number.max_zero_of_nonpos (Number.nonpos_div (Number.nonpos_sub hlate) hduration)

/-- A late run computes the rounded target. -/
theorem value_late {a : Animation} {target range duration : ℚ} {now : ℤ}
    (htarget : a.target = .finite target) (hrep : Representable target)
    (hrange : a.range = .finite range) (hduration : a.duration = .finite duration)
    (hpos : 0 < duration) (hlate : Number.le a.endTime (.finite now)) :
    a.value now = .finite ⌊target + 1 / 2⌋ := by
  have hzero : Number.mul (.finite 0) (.finite range) = .finite 0 := by
    rw [Number.mul, zero_mul, Number.ofRat_of_representable representable_zero]
  rw [Animation.value, hduration, remaining_eq_zero hpos hlate, htarget, hrange, hzero,
    Number.sub_finite, sub_zero, Number.ofRat_of_representable hrep]
  rfl

/-- A run that reaches the target has an integer for it and no overflow in the range. -/
theorem of_value_eq {a : Animation} {target : ℚ} {now : ℤ} (h : a.value now = .finite target) :
    (∃ n : ℤ, target = n) ∧ ∃ range, a.range = .finite range := by
  obtain ⟨v, hv, htarget⟩ := Number.round_eq_finite h
  obtain ⟨-, product, -, hproduct⟩ := Number.sub_eq_finite hv
  obtain ⟨-, range, -, hrange⟩ := Number.mul_eq_finite hproduct
  exact ⟨⟨_, htarget⟩, range, hrange⟩

/-! ### Runs -/

/-- One of the runs is at `endTime` or later. -/
def Animation.Reached (a : Animation) (first : ℤ) (readings : List ℤ) : Prop :=
  ∃ now ∈ first :: readings, Number.le a.endTime (.finite now)

section Run

variable {formatCurrency toLocaleString : Number → String}

theorem tick_of_stopped {a : Animation} {c : Counter} (h : c.timer = false) (now : ℤ) :
    tick formatCurrency toLocaleString a c now = c := by
  simp [tick, h]

theorem foldl_tick_of_stopped {a : Animation} {c : Counter} (h : c.timer = false)
    (readings : List ℤ) : readings.foldl (tick formatCurrency toLocaleString a) c = c := by
  induction readings with
  | nil => rfl
  | cons now readings ih => rw [List.foldl_cons, tick_of_stopped h, ih]

/-- A stopped counter shows the target, and some run has computed it. -/
def Settled (formatCurrency toLocaleString : Number → String) (a : Animation) (c : Counter) :
    Prop :=
  c.timer = false →
    c.textContent = a.text formatCurrency toLocaleString a.target ∧
      ∃ now, Number.strictEq (a.value now) a.target

theorem settled_run {a : Animation} {c : Counter} (hc : c.timer = true) (now : ℤ) :
    Settled formatCurrency toLocaleString a (run formatCurrency toLocaleString a c now) := by
  intro h
  have heq : Number.strictEq (a.value now) a.target = true := by simpa [run, hc] using h
  have hvalue : a.value now = a.target := by
    simp only [Number.strictEq, Bool.and_eq_true, decide_eq_true_iff] at heq
    exact heq.2
  exact ⟨by rw [run, hvalue], now, heq⟩

theorem settled_foldl {a : Animation} {c : Counter}
    (hc : Settled formatCurrency toLocaleString a c) (readings : List ℤ) :
    Settled formatCurrency toLocaleString a
      (readings.foldl (tick formatCurrency toLocaleString a) c) := by
  induction readings generalizing c with
  | nil => exact hc
  | cons now readings ih =>
    apply ih
    unfold tick
    split
    · next h => exact settled_run h now
    · exact hc

/-- A run that computes the target clears the timer. -/
theorem run_stops {a : Animation} {c : Counter} {target : ℚ} {now : ℤ}
    (htarget : a.target = .finite target) (h : a.value now = a.target) :
    (run formatCurrency toLocaleString a c now).timer = false := by
  have heq : Number.strictEq (a.value now) a.target = true := by
    rw [h, htarget]
    exact Number.strictEq_finite_iff.mpr rfl
  simp [run, heq]

/-- If the late runs compute the target, the timer does not outlive one of them. -/
theorem foldl_tick_stops {a : Animation} {target : ℚ} (htarget : a.target = .finite target)
    (hvalue : ∀ now : ℤ, Number.le a.endTime (.finite now) → a.value now = a.target)
    {readings : List ℤ} (hlate : ∃ now ∈ readings, Number.le a.endTime (.finite now))
    (c : Counter) :
    (readings.foldl (tick formatCurrency toLocaleString a) c).timer = false := by
  obtain ⟨now, hmem, hnow⟩ := hlate
  obtain ⟨before, behind, rfl⟩ := List.append_of_mem hmem
  rw [List.foldl_append, List.foldl_cons]
  have hstop : ∀ c : Counter, (tick formatCurrency toLocaleString a c now).timer = false := by
    intro c
    unfold tick
    split
    · exact run_stops htarget (hvalue now hnow)
    · next h => simpa using h
  rw [foldl_tick_of_stopped (hstop _)]
  exact hstop _

theorem after_stops {a : Animation} {target : ℚ} (htarget : a.target = .finite target)
    (hvalue : ∀ now : ℤ, Number.le a.endTime (.finite now) → a.value now = a.target)
    {first : ℤ} {readings : List ℤ} (hlate : a.Reached first readings) (text : String) :
    (after formatCurrency toLocaleString a text first readings).timer = false := by
  have h : after formatCurrency toLocaleString a text first readings =
      (first :: readings).foldl (tick formatCurrency toLocaleString a) ⟨true, text⟩ := rfl
  rw [h]
  exact foldl_tick_stops htarget hvalue hlate _

theorem settled_after (a : Animation) (text : String) (first : ℤ) (readings : List ℤ) :
    Settled formatCurrency toLocaleString a
      (after formatCurrency toLocaleString a text first readings) :=
  settled_foldl (settled_run rfl first) readings

theorem after_timer_of_nan {a : Animation} (h : ∀ now, a.value now = .nan) (text : String)
    (first : ℤ) (readings : List ℤ) :
    ¬(after formatCurrency toLocaleString a text first readings).timer = false := by
  intro hstopped
  obtain ⟨-, now, hnow⟩ := settled_after a text first readings hstopped
  rw [h now] at hnow
  exact absurd hnow (by simp [Number.strictEq])

/-- A counter with a late run stops exactly if a finite range leads to an integer. -/
theorem after_timer_eq_false_iff {a : Animation} {target duration : ℚ} {first : ℤ}
    {readings : List ℤ} (htarget : a.target = .finite target) (hrep : Representable target)
    (hduration : a.duration = .finite duration) (hpos : 0 < duration)
    (hlate : a.Reached first readings) (text : String) :
    (after formatCurrency toLocaleString a text first readings).timer = false ↔
      (∃ n : ℤ, target = n) ∧ ∃ range, a.range = .finite range := by
  constructor
  · intro h
    obtain ⟨-, now, hnow⟩ := settled_after a text first readings h
    rw [htarget, Number.strictEq_finite_iff] at hnow
    exact of_value_eq hnow
  · rintro ⟨⟨n, rfl⟩, range, hrange⟩
    refine after_stops htarget ?_ hlate text
    intro now hnow
    have hround : ⌊(n : ℚ) + 1 / 2⌋ = n := by
      rw [Int.floor_intCast_add]
      norm_num
    rw [value_late htarget hrep hrange hduration hpos hnow, htarget, hround]

end Run

/-! ### The targets of `updateMetrics` -/

theorem length_setAdd_le (seen : List (Option Json)) (v : Option Json) :
    (setAdd seen v).length ≤ seen.length + 1 := by
  unfold setAdd
  split
  · omega
  · simp

theorem length_foldl_setAdd_le (values seen : List (Option Json)) :
    (values.foldl setAdd seen).length ≤ seen.length + values.length := by
  induction values generalizing seen with
  | nil => simp
  | cons v values ih =>
    have hstep := length_setAdd_le seen v
    have hrest := ih (setAdd seen v)
    rw [List.foldl_cons, List.length_cons]
    omega

theorem uniqueSuppliers_le (data : List Material) : uniqueSuppliers data ≤ data.length := by
  have h := length_foldl_setAdd_le (data.map Material.supplier) []
  simpa [uniqueSuppliers] using h

/-- Sums are rounded: a finite total is one of the numbers. -/
theorem representable_foldlM {data : List Material} {sum total : Number}
    (hsum : ∀ v, sum = .finite v → Representable v)
    (h : data.foldlM (fun sum item => (parseFloat item.price).map sum.add) sum = some total) :
    ∀ v, total = .finite v → Representable v := by
  induction data generalizing sum with
  | nil =>
    obtain rfl : sum = total := Option.some.inj h
    exact hsum
  | cons item data ih =>
    rw [List.foldlM_cons] at h
    obtain ⟨next, hnext, hrest⟩ := Option.bind_eq_some_iff.mp h
    obtain ⟨price, -, rfl⟩ := Option.map_eq_some_iff.mp hnext
    refine ih ?_ hrest
    intro v hv
    obtain ⟨_, _, _, _, hround⟩ := Number.add_eq_finite hv
    exact (Number.ofRat_eq_finite hround).2

theorem representable_totalValue {data : List Material} {v : ℚ}
    (h : totalValue data = some (.finite v)) : Representable v := by
  refine representable_foldlM ?_ h v rfl
  intro w hw
  obtain rfl := Number.finite.inj hw
  exact representable_zero

/-! ### The counters of the page -/

section Page

variable (formatCurrency toLocaleString : Number → String)

theorem animateValue_stops_iff {start target duration : ℚ} (isCurrency : Bool) (startTime : ℤ)
    {first : ℤ} {readings : List ℤ} (hrep : Representable target) (hpos : 0 < duration)
    (hlate : (animateValue (.finite start) (.finite target) (.finite duration) isCurrency
      startTime).Reached first readings) (text : String) :
    (after formatCurrency toLocaleString (animateValue (.finite start) (.finite target)
        (.finite duration) isCurrency startTime) text first readings).timer = false ↔
      (∃ n : ℤ, target = n) ∧ |target - start| < overflow := by
  rw [after_timer_eq_false_iff rfl hrep rfl hpos hlate, ← Number.ofRat_finite_iff,
    ← Number.sub_finite]
  rfl

/-- A counter that starts at zero. -/
theorem animateValue_zero_stops_iff {target : Number} {duration : ℚ} (isCurrency : Bool)
    (startTime : ℤ) {first : ℤ} {readings : List ℤ}
    (hrep : ∀ v, target = .finite v → Representable v) (hpos : 0 < duration)
    (hlate : (animateValue (.finite 0) target (.finite duration) isCurrency startTime).Reached
      first readings) (text : String) :
    (after formatCurrency toLocaleString (animateValue (.finite 0) target (.finite duration)
        isCurrency startTime) text first readings).timer = false ↔
      ∃ n : ℤ, target = .finite n := by
  cases target with
  | nan =>
    refine iff_of_false (after_timer_of_nan ?_ text first readings) (by simp)
    intro now
    rfl
  | infinity negative =>
    refine iff_of_false (after_timer_of_nan ?_ text first readings) (by simp)
    intro now
    exact congrArg Number.round (Number.sub_mul_infinity _ negative)
  | finite v =>
    have hv := hrep v rfl
    have hfinite : |v - 0| < overflow := by
      rw [← Number.ofRat_finite_iff, sub_zero]
      exact ⟨v, Number.ofRat_of_representable hv⟩
    rw [animateValue_stops_iff formatCurrency toLocaleString isCurrency startTime hv hpos hlate,
      and_iff_left hfinite]
    simp only [Number.finite.injEq]

/-- The counter of a number of things. -/
theorem animateValue_natural_stops {n : ℕ} (hn : n < 2 ^ 32) (startTime : ℤ) {first : ℤ}
    {readings : List ℤ}
    (hlate : (animateValue (.finite 0) (.ofRat n) (.finite 1500) false startTime).Reached
      first readings) (text : String) :
    (after formatCurrency toLocaleString (animateValue (.finite 0) (.ofRat n) (.finite 1500)
      false startTime) text first readings).timer = false := by
  have habs : |(n : ℤ)| < 2 ^ 53 := by
    rw [Nat.abs_cast]
    omega
  have hexact : Number.ofRat n = .finite n := by exact_mod_cast Number.ofRat_intCast habs
  rw [animateValue_zero_stops_iff _ _ false startTime _ (by norm_num) hlate]
  · exact ⟨n, by rw [hexact, Int.cast_natCast]⟩
  · intro v hv
    exact (Number.ofRat_eq_finite hv).2

/-- The counters of the page have all stopped exactly if the prices add up to an integer. -/
theorem updateMetrics_stops_iff {data : List Material} (hlen : data.length < 2 ^ 32)
    {time₁ time₂ time₃ : ℤ} {first : Animation → ℤ} {readings : Animation → List ℤ}
    (hlate : ∀ a ∈ updateMetrics time₁ time₂ time₃ data, a.Reached (first a) (readings a))
    (text : String) :
    (∀ a ∈ updateMetrics time₁ time₂ time₃ data,
        (after formatCurrency toLocaleString a text (first a) (readings a)).timer = false) ↔
      ∀ total, totalValue data = some total → ∃ n : ℤ, total = .finite n := by
  simp only [updateMetrics, List.mem_cons, forall_eq_or_imp] at hlate ⊢
  obtain ⟨hlate₁, hlate₂, hlate₃⟩ := hlate
  have hunique : uniqueSuppliers data < 2 ^ 32 := lt_of_le_of_lt (uniqueSuppliers_le data) hlen
  rw [and_iff_right (animateValue_natural_stops _ _ hlen time₁ hlate₁ text),
    and_iff_right (animateValue_natural_stops _ _ hunique time₂ hlate₂ text)]
  simp only [List.mem_map, Option.mem_toList, forall_exists_index, and_imp,
    forall_apply_eq_imp_iff₂] at hlate₃ ⊢
  refine forall₂_congr ?_
  intro total htotal
  refine animateValue_zero_stops_iff _ _ true time₃ ?_ (by norm_num) (hlate₃ total htotal) text
  rintro v rfl
  exact representable_totalValue htotal

/-- After a run at `endTime` or later, a counter has stopped and shows its target exactly if the
target is an integer whose distance from the start does not overflow; and the page's counters have
all stopped exactly if the prices add up to an integer. -/
theorem counters_stop_iff :
    (∀ (start target duration : ℚ) (isCurrency : Bool) (startTime first : ℤ)
      (readings : List ℤ) (text : String),
      let a := animateValue (.finite start) (.finite target) (.finite duration) isCurrency startTime
      let c := after formatCurrency toLocaleString a text first readings
      Representable target → 0 < duration → a.Reached first readings →
        ((c.timer = false ∧
            c.textContent = a.text formatCurrency toLocaleString (.finite target)) ↔
          (∃ n : ℤ, target = n) ∧ |target - start| < overflow)) ∧
    ∀ (data : List Material) (time₁ time₂ time₃ : ℤ) (first : Animation → ℤ)
      (readings : Animation → List ℤ) (text : String), data.length < 2 ^ 32 →
      (∀ a ∈ updateMetrics time₁ time₂ time₃ data, a.Reached (first a) (readings a)) →
        ((∀ a ∈ updateMetrics time₁ time₂ time₃ data,
            (after formatCurrency toLocaleString a text (first a) (readings a)).timer = false) ↔
          ∀ total, totalValue data = some total → ∃ n : ℤ, total = .finite n) := by
  refine ⟨?_, ?_⟩
  · intro start target duration isCurrency startTime first readings text a c hrep hpos hlate
    rw [← animateValue_stops_iff formatCurrency toLocaleString isCurrency startTime hrep hpos hlate]
    refine and_iff_left_of_imp ?_
    intro hstopped
    exact (settled_after a text first readings hstopped).1
  · intro data time₁ time₂ time₃ first readings text hlen hlate
    exact updateMetrics_stops_iff formatCurrency toLocaleString hlen hlate text

end Page

theorem endTime_1500 (target : Number) (isCurrency : Bool) :
    (animateValue (.finite 0) target (.finite 1500) isCurrency 0).endTime = .finite 1500 := by
  have hrep : Representable 1500 := by
    exact_mod_cast representable_intCast (show |(1500 : ℤ)| < 2 ^ 53 by norm_num)
  have h := Number.zero_add_finite hrep
  simpa [animateValue] using h

theorem reached_1500 (target : Number) (isCurrency : Bool) :
    (animateValue (.finite 0) target (.finite 1500) isCurrency 0).Reached 0 [1500] := by
  refine ⟨1500, by simp, ?_⟩
  rw [endTime_1500]
  simp [Number.le, Number.lt]

theorem representable_half : Representable (1 / 2) :=
  ⟨1, -1, by norm_num, by norm_num, by norm_num, by norm_num⟩

/-- A material for `0.5`: its timer still runs after its time. -/
theorem half_does_not_stop :
    totalValue [⟨some (.string [65]), some (.number (.finite (1 / 2)))⟩] =
        some (.finite (1 / 2)) ∧
      (animateValue (.finite 0) (.finite (1 / 2)) (.finite 1500) true 0).Reached 0 [1500] ∧
      (after (fun _ => "Rp 1") (fun _ => "1")
        (animateValue (.finite 0) (.finite (1 / 2)) (.finite 1500) true 0) "Rp 0" 0
          [1500]).timer = true := by
  refine ⟨?_, reached_1500 _ true, ?_⟩
  · have h := Number.zero_add_finite representable_half
    simpa [totalValue, parseFloat, Json.textThrows, Json.textFloat] using h
  · by_contra h
    have hstopped := (animateValue_stops_iff (fun _ => "Rp 1") (fun _ => "1") true 0
      representable_half (by norm_num) (reached_1500 _ true) "Rp 0").mp (by simpa using h)
    obtain ⟨⟨n, hn⟩, -⟩ := hstopped
    have htwo : ((1 : ℤ) : ℚ) = ((2 * n : ℤ) : ℚ) := by
      push_cast
      linarith
    have hodd : (1 : ℤ) = 2 * n := Int.cast_injective htwo
    omega

/-- Three materials. -/
theorem counters_stop_three :
    (animateValue (.finite 0) (.finite 3) (.finite 1500) false 0).Reached 0 [1500] ∧
      (after (fun _ => "Rp 3") (fun _ => "3")
        (animateValue (.finite 0) (.finite 3) (.finite 1500) false 0) "0" 0
          [1500]).timer = false := by
  have hrep : Representable 3 := by
    exact_mod_cast representable_intCast (show |(3 : ℤ)| < 2 ^ 53 by norm_num)
  have hsmall : |(3 : ℚ) - 0| < overflow := by
    rw [← Number.ofRat_finite_iff, sub_zero]
    exact ⟨3, Number.ofRat_of_representable hrep⟩
  refine ⟨reached_1500 _ false, ?_⟩
  have h := (counters_stop_iff (fun _ => "Rp 3") (fun _ => "3")).1 0 3 1500 false 0 0 [1500] "0"
    hrep (by norm_num) (reached_1500 _ false)
  exact (h.mpr ⟨⟨3, rfl⟩, hsmall⟩).1

end Artha.Sales.RawMaterials
