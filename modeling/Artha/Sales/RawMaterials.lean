import Artha.Binary64.Arithmetic
import Artha.JavaScript.ParseFloat

/-!
# The counters of the raw material page (`sales/raw-materials.blade.php`)

`updateMetrics` starts three counters, each an interval timer and an element of the page.  When the
browser runs a timer and what its clock shows then is up to the browser: a run is any sequence of
readings, in milliseconds.  How a number is written is not looked into.
-/

namespace Artha.Sales.RawMaterials

open Binary64 JavaScript

/-! ### `animateValue` -/

/-- The variables of a call that its `run` reads, and the delay of its timer. -/
structure Animation where
  /-- `end`. -/
  target : Number
  range : Number
  duration : Number
  endTime : Number
  isCurrency : Bool
  stepTime : Number

/-- A call of `animateValue`, at `startTime`. -/
def animateValue (start target duration : Number) (isCurrency : Bool) (startTime : ℤ) :
    Animation where
  target := target
  range := .sub target start
  duration := duration
  endTime := .add (.finite startTime) duration
  isCurrency := isCurrency
  stepTime := .max (.abs (.floor (.div duration (.sub target start)))) (.finite 50)

/-- The element that a call writes to, and whether its timer runs. -/
structure Counter where
  timer : Bool
  textContent : String

section Run

variable (formatCurrency toLocaleString : Number → String)

/-- What the element shows for a number. -/
def Animation.text (a : Animation) (value : Number) : String :=
  if a.isCurrency then formatCurrency value else toLocaleString value

/-- `value` in `run`. -/
def Animation.value (a : Animation) (now : ℤ) : Number :=
  let remaining := Number.max (.div (.sub a.endTime (.finite now)) a.duration) (.finite 0)
  .round (.sub a.target (.mul remaining a.range))

def run (a : Animation) (c : Counter) (now : ℤ) : Counter where
  timer := c.timer && !Number.strictEq (a.value now) a.target
  textContent := a.text formatCurrency toLocaleString (a.value now)

/-- The timer, when it is due. -/
def tick (a : Animation) (c : Counter) (now : ℤ) : Counter :=
  if c.timer then run formatCurrency toLocaleString a c now else c

/-- After the call's own `run` and those of the timer. -/
def after (a : Animation) (text : String) (first : ℤ) (readings : List ℤ) : Counter :=
  readings.foldl (tick formatCurrency toLocaleString a)
    (run formatCurrency toLocaleString a ⟨true, text⟩ first)

end Run

/-! ### `updateMetrics` -/

/-- An element of the answer; none is `undefined`. -/
structure Material where
  supplier : Option Json
  price : Option Json

/-- How a `Set` compares: no two arrays or objects of an answer are the same. -/
def sameValueZero : Option Json → Option Json → Bool
  | none, none => true
  | some .null, some .null => true
  | some (.bool b), some (.bool b') => b = b'
  | some (.number x), some (.number y) => x = y
  | some (.string s), some (.string t) => s = t
  | _, _ => false

/-- `set.add(v)`. -/
def setAdd (seen : List (Option Json)) (v : Option Json) : List (Option Json) :=
  if seen.any (sameValueZero v) then seen else seen ++ [v]

/-- `new Set(data.map(item => item.supplier)).size`. -/
def uniqueSuppliers (data : List Material) : Nat :=
  ((data.map Material.supplier).foldl setAdd []).length

/-- `data.reduce((sum, item) => sum + parseFloat(item.price), 0)`; none is a `TypeError`. -/
def totalValue (data : List Material) : Option Number :=
  data.foldlM (fun sum item => (parseFloat item.price).map sum.add) (.finite 0)

/-- The calls that `updateMetrics` makes, each at its time. -/
def updateMetrics (time₁ time₂ time₃ : ℤ) (data : List Material) : List Animation :=
  let duration : Number := .finite 1500
  animateValue (.finite 0) (.ofRat data.length) duration false time₁ ::
    animateValue (.finite 0) (.ofRat (uniqueSuppliers data)) duration false time₂ ::
    (totalValue data).toList.map fun total => animateValue (.finite 0) total duration true time₃

end Artha.Sales.RawMaterials
