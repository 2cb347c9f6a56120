import Artha.MidtransHelper.Snap

/-!
# What a Snap request charges, and whether a result comes back

The request carries the total twice: as `gross_amount`, cast to an integer, and in the lines of
`item_details`, which are passed through.  The two agree where the cast is exact
(`chargesItems_iff`).

`createSnapToken` returns an array on every way out of its `try` but one: masking a server key of
fewer than four bytes raises an `\Error`, which its `catch` does not see
(`createSnapToken_returns_iff`).
-/

namespace Artha.MidtransHelper

open Php Laravel Eff

variable {h : Config.NewHelper} {orderId amount customerDetails : Value}
  {items : List (String × Value)} {env : Env} {st : St}

/-! ### The charged total -/

/-- The total of an item line: its price times its quantity, a positive integer. -/
def lineTotal (item : Value) : Option ℚ := do
  let price ← (item.getD "price" .null).number?
  let quantity ← (item.getD "quantity" .null).number?
  if 0 < quantity ∧ quantity.den = 1 then some (price * quantity) else none

/-- The sum of the line totals. -/
def itemsTotal : List (String × Value) → Option ℚ
  | [] => some 0
  | (_, item) :: items => do return (← lineTotal item) + (← itemsTotal items)

/-- `gross_amount` of a request. -/
def grossAmount (request : Value) : Option ℚ :=
  ((request.getD "transaction_details" .null).getD "gross_amount" .null).number?

/-- `gross_amount` is the sum of the lines of the request's own `item_details`. -/
def ChargesItems (request : Value) : Prop :=
  ∃ items total, request.getD "item_details" .null = .arr items ∧
    itemsTotal items = some total ∧ grossAmount request = some total

theorem chargesItems_iff {request : Value} {total : ℚ}
    (hitems : request.getD "item_details" .null = .arr items)
    (hgross : grossAmount request = some (amount.toInt : ℚ))
    (htotal : itemsTotal items = some total) (hamount : amount.number? = some total) :
    ChargesItems request ↔ amount.CastsTo total := by
  rw [← Value.toInt_eq_iff hamount]
  constructor
  · rintro ⟨items', total', hitems', htotal', hgross'⟩
    obtain rfl : items = items' := Value.arr.inj (hitems.symm.trans hitems')
    obtain rfl : total = total' := Option.some.inj (htotal.symm.trans htotal')
    exact Option.some.inj (hgross.symm.trans hgross')
  · intro hcast
    exact ⟨items, total, hitems, htotal, hgross.trans (congrArg some hcast)⟩

theorem getD_item_details_formatSnapTransaction :
    (formatSnapTransaction orderId amount customerDetails items).getD "item_details" .null =
      .arr items := rfl

theorem grossAmount_formatSnapTransaction :
    grossAmount (formatSnapTransaction orderId amount customerDetails items) =
      some (amount.toInt : ℚ) := rfl

theorem getD_item_details_snapTransaction (finish : String) :
    (snapTransaction orderId amount customerDetails items finish).getD "item_details" .null =
      .arr items := rfl

theorem grossAmount_snapTransaction (finish : String) :
    grossAmount (snapTransaction orderId amount customerDetails items finish) =
      some (amount.toInt : ℚ) := rfl

/-! ### The ways out -/

theorem getD_callback_url (c : MidtransConfig) :
    c.toArray.getD "callback_url" .null = c.callbackUrl := by
  have hget : c.toArray.get? "callback_url" = some c.callbackUrl := rfl
  rw [Value.getD, hget]
  cases c.callbackUrl <;> rfl

theorem wp_maskString (v : Value) {Q : List UInt8 → St → Prop} {E : Throwable → St → Prop} :
    wp (maskString v) env Q E st ↔
      (∀ s, v.toStringParam env.rules.floatToString = .ok s →
        (s.utf8ByteSize < 4 →
          E (.error "str_repeat(): Argument #2 ($times) must be greater than or equal to 0") st) ∧
        (4 ≤ s.utf8ByteSize →
          Q (List.replicate (s.utf8ByteSize - 4) 42 ++
            s.toUTF8.data.toList.drop (s.utf8ByteSize - 4)) st)) ∧
      ∀ e, v.toStringParam env.rules.floatToString = .error e → E e st := by
  simp only [maskString, wp_bind, wp_stringParam, wp_ite, wp_throw, wp_pure]
  refine and_congr_left' (forall_congr' fun s => imp_congr_right fun _ => ?_)
  by_cases hs : s.utf8ByteSize < 4
  · simp [hs]
  · simp [hs, not_lt.mp hs]

/-- The way through the `try`, as far as the request. -/
theorem wp_postSnapTransaction {Q : List (String × Entry) → St → Prop}
    {E : Throwable → St → Prop} :
    wp (postSnapTransaction h orderId amount customerDetails items) env Q E st ↔
      (∀ callback, env.midtrans.callbackUrl.toText env.rules.floatToString = .ok callback →
        (∀ order, orderId.toText env.rules.floatToString = .ok order →
          (∀ key, h.serverKey.toStringParam env.rules.floatToString = .ok key →
            (key.utf8ByteSize < 4 → E (.error
              "str_repeat(): Argument #2 ($times) must be greater than or equal to 0") st) ∧
            (4 ≤ key.utf8ByteSize →
              wp (send (snapRequest h key (snapTransaction orderId amount customerDetails items
                  (callback ++ "?order_id=" ++ order)))) env
                (fun r st' => if r.successful then Q (snapCreated (env.json r)) st'
                  else Q (snapRefused (env.json r)) st') E st)) ∧
          ∀ e, h.serverKey.toStringParam env.rules.floatToString = .error e → E e st) ∧
        ∀ e, orderId.toText env.rules.floatToString = .error e → E e st) ∧
      ∀ e, env.midtrans.callbackUrl.toText env.rules.floatToString = .error e → E e st := by
  simp only [postSnapTransaction, wp_bind, wp_config, getD_callback_url, wp_text, wp_maskString]
  refine and_congr_left' (forall_congr' fun callback => imp_congr_right fun _ =>
    and_congr_left' (forall_congr' fun order => imp_congr_right fun _ =>
      and_congr_left' (forall_congr' fun key => imp_congr_right fun hkey =>
        and_congr_right' (imp_congr_right fun _ => ?_))))
  -- the key was converted once already
  rw [wp_stringParam, hkey]
  simp only [Except.ok.injEq, forall_eq', reduceCtorEq, false_imp_iff, implies_true, and_true,
    wp_decode, wp_ite, wp_pure]

/-- What a raise comes to behind `catch (\Exception $e)`. -/
def Caught (Q : List (String × Entry) → St → Prop) (E : Throwable → St → Prop) :
    Throwable → St → Prop
  | .exception message, st' => Q (snapFailed message) st'
  | .error message, st' => E (.error message) st'

theorem wp_createSnapToken {Q : List (String × Entry) → St → Prop} {E : Throwable → St → Prop} :
    wp (createSnapToken h orderId amount customerDetails items) env Q E st ↔
      wp (postSnapTransaction h orderId amount customerDetails items) env Q (Caught Q E) st := by
  rw [createSnapToken, wp_handle]
  constructor
  · intro hpost
    refine wp_mono hpost (fun _ _ hQ => hQ) fun e st' he => ?_
    cases e <;> exact he
  · intro hpost
    refine wp_mono hpost (fun _ _ hQ => hQ) fun e st' he => ?_
    cases e <;> exact he

/-- Every request that is sent carries the description of the payment. -/
theorem trace_createSnapToken : ∃ sent,
    ((createSnapToken h orderId amount customerDetails items).run env st).2.trace =
      st.trace ++ sent ∧
    ∀ x ∈ sent, ∃ finish,
      x.request.body = .json (snapTransaction orderId amount customerDetails items finish) := by
  set Sent : St → Prop := fun st' => ∃ sent, st'.trace = st.trace ++ sent ∧ ∀ x ∈ sent, ∃ finish,
    x.request.body = .json (snapTransaction orderId amount customerDetails items finish)
  have hnone : Sent st := ⟨[], by simp, by simp⟩
  have hone : ∀ x finish,
      x.request.body = .json (snapTransaction orderId amount customerDetails items finish) →
      Sent (st.record x) := by
    intro x finish hx
    refine ⟨[x], rfl, fun y hy => ⟨finish, ?_⟩⟩
    rw [List.mem_singleton.mp hy]
    exact hx
  have hwp : wp (postSnapTransaction h orderId amount customerDetails items) env
      (fun _ => Sent) (fun _ => Sent) st := by
    rw [wp_postSnapTransaction]
    refine ⟨fun callback _ => ⟨fun order _ => ⟨fun key _ => ⟨fun _ => hnone, fun _ => ?_⟩,
      fun _ _ => hnone⟩, fun _ _ => hnone⟩, fun _ _ => hnone⟩
    rw [wp_sent]
    refine ⟨fun _ => hnone, fun r _ _ => ?_, fun message _ _ => hone _ _ rfl⟩
    rw [ite_self]
    exact hone _ _ rfl
  have hcreate : wp (createSnapToken h orderId amount customerDetails items) env
      (fun _ => Sent) (fun _ => Sent) st := by
    rw [wp_createSnapToken]
    refine wp_mono hwp (fun _ _ hsent => hsent) fun e st' hsent => ?_
    cases e with
    | exception message => exact hsent
    | error message => exact hsent
  exact (wp_state _).mp hcreate

/-- `gross_amount` is the total of the lines, in `formatSnapTransaction` and in what
`createSnapToken` sends, exactly if the cast of the amount is exact. -/
theorem chargesItems_iff_castsTo (orderId amount customerDetails : Value)
    (items : List (String × Value)) (total : ℚ) (htotal : itemsTotal items = some total)
    (hamount : amount.number? = some total) :
    (ChargesItems (formatSnapTransaction orderId amount customerDetails items) ↔
      amount.CastsTo total) ∧
    (∀ finish, ChargesItems (snapTransaction orderId amount customerDetails items finish) ↔
      amount.CastsTo total) ∧
    ∀ (h : Config.NewHelper) (env : Env) (st : St), ∃ sent,
      ((createSnapToken h orderId amount customerDetails items).run env st).2.trace =
        st.trace ++ sent ∧
      ∀ x ∈ sent, ∃ finish,
        x.request.body = .json (snapTransaction orderId amount customerDetails items finish) := by
  refine ⟨?_, fun finish => ?_, fun h env st => trace_createSnapToken⟩
  · exact chargesItems_iff getD_item_details_formatSnapTransaction
      grossAmount_formatSnapTransaction htotal hamount
  · exact chargesItems_iff (getD_item_details_snapTransaction finish)
      (grossAmount_snapTransaction finish) htotal hamount

/-- Three products at the price of the text. -/
def threeAt (price : String) : List (String × Value) :=
  [("0", .arr [("id", .str "1"), ("price", .str price), ("quantity", .int 3),
    ("name", .str "Test Product")])]

theorem chargesItems_three :
    ChargesItems (formatSnapTransaction (.str "ORDER-123") (.int 300000) (.arr [])
      (threeAt "100000.00")) := by
  have htotal : itemsTotal (threeAt "100000.00") = some (300000 : ℤ) := by decide +kernel
  exact (chargesItems_iff_castsTo _ (.int 300000) _ _ _ htotal rfl).1.mpr trivial

theorem not_chargesItems_fraction :
    itemsTotal (threeAt "1500.50") = (Value.str "4501.50").number? ∧
    ¬ChargesItems (formatSnapTransaction (.str "ORDER-123") (.str "4501.50") (.arr [])
      (threeAt "1500.50")) ∧
    ∀ finish, ¬ChargesItems (snapTransaction (.str "ORDER-123") (.str "4501.50") (.arr [])
      (threeAt "1500.50") finish) := by
  have htotal : itemsTotal (threeAt "1500.50") = some (9003 / 2) := by decide +kernel
  have hamount : (Value.str "4501.50").number? = some (9003 / 2) := by decide +kernel
  have hcast : ¬(Value.str "4501.50").CastsTo (9003 / 2) := by
    rw [← Value.toInt_eq_iff hamount]
    decide +kernel
  refine ⟨htotal.trans hamount.symm, fun hcharges => hcast ?_, fun finish hcharges => hcast ?_⟩
  · exact (chargesItems_iff getD_item_details_formatSnapTransaction
      grossAmount_formatSnapTransaction htotal hamount).mp hcharges
  · exact (chargesItems_iff (getD_item_details_snapTransaction finish)
      (grossAmount_snapTransaction finish) htotal hamount).mp hcharges

/-! ### A result on every way out -/

/-- The array has a boolean `success`, which is true only if the endpoint answered with a 2xx
status. -/
def Honest (st : St) (result : List (String × Entry)) (st' : St) : Prop :=
  ∃ b, result.lookup "success" = some (.value (.bool b)) ∧
    (b = true → ∃ x, st'.trace = st.trace ++ [x] ∧ x.succeeded = true)

theorem honest_snapFailed (message : Text) (st' : St) : Honest st (snapFailed message) st' :=
  ⟨false, rfl, fun hb => absurd hb (by decide)⟩

theorem honest_answer (q : HttpRequest) (r : HttpResponse) (data : Value) :
    if r.successful then Honest st (snapCreated data) (st.record ⟨q, .response r⟩)
    else Honest st (snapRefused data) (st.record ⟨q, .response r⟩) := by
  split_ifs with hr
  · exact ⟨true, rfl, fun _ => ⟨⟨q, .response r⟩, rfl, hr⟩⟩
  · exact ⟨false, rfl, fun hb => absurd hb (by decide)⟩

/-- Only an array has no text. -/
theorem ne_arr_of_toText {fmt : UInt64 → String} {v : Value} {s : String}
    (hs : v.toText fmt = .ok s) (es : List (String × Value)) : v ≠ .arr es := by
  rintro rfl
  cases hs

theorem exists_toText {v : Value} (hv : ∀ es, v ≠ .arr es) (fmt : UInt64 → String) :
    ∃ s, v.toText fmt = .ok s ∧ v.toStringParam fmt = .ok s := by
  cases v with
  | arr es => exact absurd rfl (hv es)
  | null | bool b | int n | float bits | str s => exact ⟨_, rfl, rfl⟩

/-- Concatenating an array is a warning, which is caught. -/
theorem caught_toText {fmt : UInt64 → String} {v : Value} {e : Throwable}
    (he : v.toText fmt = .error e) (E : Throwable → St → Prop) : Caught (Honest st) E e st := by
  cases v with
  | arr es =>
    obtain rfl := Except.error.inj he
    exact honest_snapFailed _ st
  | null | bool b | int n | float bits | str s => cases he

/-- A request that goes out leads to an array, whatever becomes of it. -/
theorem wp_send_honest (q : HttpRequest) (E : Throwable → St → Prop) :
    wp (send q) env
      (fun r st' => if r.successful then Honest st (snapCreated (env.json r)) st'
        else Honest st (snapRefused (env.json r)) st') (Caught (Honest st) E) st := by
  rw [wp_sent]
  refine ⟨fun _ => ?_, fun r _ _ => ?_, fun message _ _ => ?_⟩
  · exact honest_snapFailed _ st
  · exact honest_answer q r (env.json r)
  · exact honest_snapFailed message _

/-- The key can be masked, or building the request raises before that. -/
def Maskable (h : Config.NewHelper) (orderId : Value) (env : Env) : Prop :=
  (∃ key, h.serverKey.toText env.rules.floatToString = .ok key ∧ 4 ≤ key.utf8ByteSize) ∨
    (∃ es, orderId = .arr es) ∨ ∃ es, env.midtrans.callbackUrl = .arr es

theorem honest_of_maskable (hmask : Maskable h orderId env) :
    wp (createSnapToken h orderId amount customerDetails items) env (Honest st)
      (fun _ _ => False) st := by
  rw [wp_createSnapToken, wp_postSnapTransaction]
  refine ⟨fun callback hcallback => ⟨fun order horder => ?_, fun e he => caught_toText he _⟩,
    fun e he => caught_toText he _⟩
  obtain ⟨key, hkey, hlong⟩ | ⟨es, hes⟩ | ⟨es, hes⟩ := hmask
  · obtain ⟨_, hkey', hparam⟩ := exists_toText (ne_arr_of_toText hkey) env.rules.floatToString
    obtain rfl := Except.ok.inj (hkey.symm.trans hkey')
    rw [hparam]
    refine ⟨fun _ heq => ?_, fun e he => by cases he⟩
    obtain rfl := Except.ok.inj heq
    exact ⟨fun hshort => absurd hlong (not_le.mpr hshort), fun _ => wp_send_honest _ _⟩
  · exact absurd hes (ne_arr_of_toText horder es)
  · exact absurd hes (ne_arr_of_toText hcallback es)

theorem maskable_of_returns {Q : List (String × Entry) → St → Prop}
    (hwp : wp (createSnapToken h orderId amount customerDetails items) env Q
      (fun _ _ => False) st) : Maskable h orderId env := by
  rw [wp_createSnapToken, wp_postSnapTransaction] at hwp
  by_contra hmask
  simp only [Maskable, not_or, not_exists] at hmask
  obtain ⟨hkey, horder, hcallback⟩ := hmask
  obtain ⟨callback, hcallback, -⟩ := exists_toText hcallback env.rules.floatToString
  obtain ⟨order, horder, -⟩ := exists_toText horder env.rules.floatToString
  have hmasked := (hwp.1 callback hcallback).1 order horder
  by_cases harr : ∃ es, h.serverKey = .arr es
  · -- `strlen` of an array is a `TypeError`
    obtain ⟨es, hes⟩ := harr
    exact hmasked.2 _ (by rw [hes]; rfl)
  · obtain ⟨key, htext, hparam⟩ := exists_toText (not_exists.mp harr) env.rules.floatToString
    have hshort : key.utf8ByteSize < 4 := not_le.mp fun hlong => hkey key ⟨htext, hlong⟩
    exact (hmasked.1 key hparam).1 hshort

/-- A token request returns an array, which reports success only of a 2xx answer, exactly if the
key can be masked. -/
theorem createSnapToken_returns_iff (h : Config.NewHelper)
    (orderId amount customerDetails : Value) (items : List (String × Value)) (env : Env) (st : St) :
    wp (createSnapToken h orderId amount customerDetails items) env (Honest st)
        (fun _ _ => False) st ↔ Maskable h orderId env :=
  ⟨maskable_of_returns, honest_of_maskable⟩

/-- A server key of three letters: the `ValueError` of `str_repeat` reaches the caller. -/
theorem createSnapToken_short_key :
    ((createSnapToken (setServerKey ⟨.str "SB-Mid-server-key", .str "SB-Mid-client-key",
        .bool false, "https://app.sandbox.midtrans.com/snap/v1"⟩ (.str "abc"))
      (.str "ORDER-123") (.int 100000) (.arr []) []).run
      (Env.answering (fun _ => .null) (.response ⟨201, .utf8 "null"⟩))
      (St.initial fun _ => .null)).1 =
      .error (.error "str_repeat(): Argument #2 ($times) must be greater than or equal to 0") :=
  rfl

end Artha.MidtransHelper
