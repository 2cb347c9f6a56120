import Artha.Products.Spec.Cards

/-!
# The name in the handler

On `dashboard-new.blade.php` the name of a product is also the second argument of the handler of the
button.  The value of the attribute ends at the first quotation mark, the string at the first
apostrophe; neither is longer than what is written, so the string is the name only if nothing in the
name has a meaning (`shown_dashboardNew_iff`).
-/

namespace Artha.Products.Cards

open JavaScript Html

variable {names : NamedReferences} {ownText : Tag → JsString → Nat} {texts : NumberTexts}
  {amounts : Amounts}

/-! ### Tags without handlers -/

def noHandler (t : Tag) : Bool := !t.attributes.any fun a => (units "on").isPrefixOf a.1

theorem handlers_of_noHandler {t : Tag} (h : noHandler t = true) : handlers names t = [] := by
  have hfilter : (t.attributes.filter fun a => (units "on").isPrefixOf a.1) = [] := by
    rw [List.filter_eq_nil_iff]
    intro a ha hbegins
    simp only [noHandler, Bool.not_eq_true', List.any_eq_false] at h
    exact h a ha hbegins
  rw [handlers, hfilter]
  rfl

theorem calls_of_noHandler {items : List Html.Item} (h : ∀ t, .tag t ∈ items → noHandler t = true) :
    calls names items = [] := by
  rw [calls, List.flatMap_eq_nil_iff]
  intro i hi
  cases i with
  | char c => rfl
  | comment => rfl
  | tag t => exact handlers_of_noHandler (h t hi)

/-- Neither a heading nor a paragraph, and without handlers. -/
def quiet (t : Tag) : Bool := harmless t && noHandler t

theorem quiet_erase (t : Tag) : quiet t.erase = quiet t := by
  have hany : noHandler t.erase = noHandler t := by
    simp [noHandler, Tag.erase, List.any_map, Function.comp_def]
  rw [quiet, quiet, hany]
  rfl

/-! ### The card up to the button -/

theorem opensAt_render₁ : OpensAt harmless (units "h3") renderProductsStart :=
  .of_opensAt (by decide +kernel)

theorem opensAt_render₂ :
    OpensAt harmless (units "p") (line 16 "<p class=\"text-gray-600 text-sm mb-3\">") :=
  .of_opensAt (by decide)

theorem quiet_cons {s s'' : State} {a : JsString} {l : List JsString} (s' : State)
    (h : Passes quiet s a s') (h' : Passes quiet s' l.flatten s'') :
    Passes quiet s (a :: l).flatten s'' :=
  .cons quiet_erase s' h h'

/-- The input with the first attributes of it, up to values. -/
def inputTag (attributes : List String) : Tag :=
  ⟨false, units "input", attributes.map fun name => (units name, [])⟩

theorem passes_renderProductsMiddle (p : Product) :
    Passes quiet .data (renderProductsMiddle texts amounts p) .data := by
  unfold renderProductsMiddle
  refine quiet_cons .data (.of_passes (by decide)) ?_
  refine quiet_cons .data (.of_passes (by decide)) ?_
  refine quiet_cons .data (.text (amounts.formatCurrency_plain p.price)) ?_
  refine quiet_cons .data (.of_passes (by decide)) ?_
  refine quiet_cons .data (.of_passes (by decide)) ?_
  refine quiet_cons .data (passes_number p.stock) ?_
  refine quiet_cons .data (.of_passes (by decide)) ?_
  refine quiet_cons .data (.of_passes (by decide)) ?_
  refine quiet_cons .data (.of_passes (by decide)) ?_
  -- the attributes of the input
  refine quiet_cons (.quoted 34 (inputTag ["type", "min"]) (units "max") [])
    (.of_passes (by decide)) ?_
  refine quiet_cons (.quoted 34 (inputTag ["type", "min"]) (units "max") [])
    (passes_value p.stock _ _ _) ?_
  refine quiet_cons (.beforeAttribute (inputTag ["type", "min", "max", "value"]))
    (.of_passes (by decide)) ?_
  refine quiet_cons (.beforeAttribute (inputTag ["type", "min", "max", "value", "class"]))
    (.of_passes (by decide +kernel)) ?_
  refine quiet_cons (.quoted 34 (inputTag ["type", "min", "max", "value", "class"]) (units "id") [])
    (.of_passes (by decide)) ?_
  refine quiet_cons (.quoted 34 (inputTag ["type", "min", "max", "value", "class"]) (units "id") [])
    (passes_value p.productId _ _ _) ?_
  exact .of_passes (by decide)

/-! ### The button -/

/-- The handler up to the name. -/
def handlerStart (texts : NumberTexts) (p : Product) : JsString :=
  units "addToCart(" ++ (texts.text p.productId ++ units ", '")

/-- The handler behind the name. -/
def handlerEnd (texts : NumberTexts) (p : Product) : JsString :=
  units "', " ++ (texts.text p.price ++ units ")")

/-- The button with its first attribute. -/
def button (handler : JsString) : Tag := ⟨false, units "button", [(units "onclick", handler)]⟩

theorem feed_renderProductsButton (p : Product) :
    feed .data (renderProductsButton texts p) =
      ((line 20 "").map .char, inHandler (handlerStart texts p)) := by
  have hline : feed .data (line 20 "<button onclick=\"addToCart(") =
      ((line 20 "").map .char, inHandler (units "addToCart(")) := by decide
  have hcomma : (units ", '").all (fun c => c ≠ 0 ∧ c ≠ 34) = true := by decide
  have hvalue : feed (inHandler (units "addToCart(")) (texts.text p.productId ++ units ", '") =
      ([], inHandler (handlerStart texts p)) := by
    refine feed_quoted _ _ _ ?_
    intro c hc
    rcases List.mem_append.mp hc with hc | hc
    · obtain ⟨hnull, -, -, -, hquote⟩ := number_plain p.productId hc
      exact ⟨hnull, hquote⟩
    · exact of_decide_eq_true (List.all_eq_true.mp hcomma c hc)
  have hsplit : renderProductsButton texts p =
      line 20 "<button onclick=\"addToCart(" ++ (texts.text p.productId ++ units ", '") := by
    simp [renderProductsButton]
  rw [hsplit, feed_append, hline]
  dsimp only
  rw [hvalue, List.append_nil]

/-- Behind the name comes the end of the handler. -/
theorem exists_renderProductsRest (p : Product) :
    ∃ rest, renderProductsRest texts p = handlerEnd texts p ++ 34 :: rest := by
  have hquote : units ")\" " = units ")" ++ [34, 32] := by decide
  unfold renderProductsRest handlerEnd
  rw [List.flatten_cons, List.flatten_cons, List.flatten_cons, hquote]
  generalize List.flatten _ = rest
  refine ⟨32 :: rest, ?_⟩
  simp only [List.append_assoc, List.cons_append, List.nil_append]

/-- The name cannot be seen behind the button. -/
theorem passes_renderProductsRest (p : Product) (v : JsString) :
    Passes harmless (inHandler v) (renderProductsRest texts p) .data := by
  have hstart : Passes harmless (inHandler v) [] (inHandler []) := ⟨by simp, rfl, by simp [feed]⟩
  rw [← List.nil_append (renderProductsRest texts p)]
  refine Passes.append (fun _ => rfl) hstart ?_
  unfold renderProductsRest
  refine passes_cons (inHandler []) (.of_passes (by decide)) ?_
  refine passes_cons (inHandler []) (passes_value p.price _ _ _) ?_
  split_ifs
  · exact .of_passes (by decide +kernel)
  · exact .of_passes (by decide +kernel)

theorem tokens_renderProductsButton (p : Product) {rest : JsString} (hrest : 13 ∉ rest) :
    tokens names ownText (renderProductsButton texts p ++ rest) =
      (line 20 "").map .char ++ run names ownText (inHandler (handlerStart texts p)) rest := by
  have hline : (line 20 "<button onclick=\"addToCart(").all (fun c => c ≠ 38 ∧ c ≠ 13) = true := by
    decide
  have hcomma : (units ", '").all (fun c => c ≠ 38 ∧ c ≠ 13) = true := by decide
  have hplain : ∀ c ∈ renderProductsButton texts p, c ≠ 38 ∧ c ≠ 13 := by
    intro c hc
    simp only [renderProductsButton, List.flatten_cons, List.flatten_nil, List.append_nil,
      List.mem_append] at hc
    rcases hc with hc | hc | hc
    · exact of_decide_eq_true (List.all_eq_true.mp hline c hc)
    · obtain ⟨-, hreturn, hamp, -, -⟩ := number_plain p.productId hc
      exact ⟨hamp, hreturn⟩
    · exact of_decide_eq_true (List.all_eq_true.mp hcomma c hc)
  have hamp : 38 ∉ renderProductsButton texts p := fun h => (hplain 38 h).1 rfl
  have hreturn : 13 ∉ renderProductsButton texts p := fun h => (hplain 13 h).2 rfl
  have hraw : NotRaw (feed .data (renderProductsButton texts p)).1 := by
    intro t ht
    rw [feed_renderProductsButton] at ht
    simp at ht
  unfold tokens
  rw [normalizeNewlines_append hreturn, run_append hamp hraw, feed_renderProductsButton,
    normalizeNewlines, normalizeFrom_of_not_mem hrest]

/-! ### The call -/

theorem isNumberUnit_of_mem (v : ℚ) {c : UInt16} (hc : c ∈ texts.text v) :
    isNumberUnit c = true := by
  rcases texts.units v c hc with hdigit | rfl | rfl | rfl | rfl
  · simp [isNumberUnit, hdigit]
  all_goals decide

/-- The call is read up to the name. -/
theorem parseCall_handlerStart (p : Product) (d : JsString) :
    parseCall (handlerStart texts p ++ d) =
      (Json.parseItems parseArgument 41 ((texts.text p.productId).length + d.length + 2)
          (32 :: 39 :: d)).bind fun r =>
        if r.2 = [] then some ⟨units "addToCart", .number (texts.text p.productId) :: r.1⟩
        else none := by
  have hname : ∀ c ∈ units "addToCart", isIdentifierUnit c = true :=
    List.all_eq_true.mp (by decide)
  have hsplit : handlerStart texts p ++ d =
      units "addToCart" ++ 40 :: (texts.text p.productId ++ 44 :: 32 :: 39 :: d) := by
    have hopen : units "addToCart(" = units "addToCart" ++ [40] := by decide
    have hcomma : units ", '" = [44, 32, 39] := by decide
    rw [handlerStart, hopen, hcomma]
    simp only [List.append_assoc, List.cons_append, List.nil_append]
  have hdrop : (handlerStart texts p ++ d).dropWhile isIdentifierUnit =
      40 :: (texts.text p.productId ++ 44 :: 32 :: 39 :: d) := by
    rw [hsplit, List.dropWhile_append_of_pos hname]
    rfl
  have htake : (handlerStart texts p ++ d).takeWhile isIdentifierUnit = units "addToCart" := by
    rw [hsplit, List.takeWhile_append_of_pos hname, List.takeWhile_cons_of_neg (by decide),
      List.append_nil]
  have hlength : (texts.text p.productId ++ 44 :: 32 :: 39 :: d).length =
      (texts.text p.productId).length + d.length + 2 + 1 := by
    simp only [List.length_append, List.length_cons]
    omega
  have hnumber : parseArgument (texts.text p.productId ++ 44 :: 32 :: 39 :: d) =
      some (.number (texts.text p.productId), 44 :: 32 :: 39 :: d) :=
    parseArgument_number (texts.ne_nil p.productId) (fun c hc => isNumberUnit_of_mem _ hc) rfl
  unfold parseCall
  rw [hdrop, htake]
  dsimp only
  rw [if_pos rfl, hlength, Json.parseItems_comma (by decide) hnumber rfl]
  cases Json.parseItems parseArgument 41 ((texts.text p.productId).length + d.length + 2)
    (32 :: 39 :: d) <;> rfl

/-- The string of the call is a literal. -/
theorem literal_of_parseCall {p : Product} {d w : JsString} {call : Call}
    (h : parseCall (handlerStart texts p ++ d) = some call) (hstrings : call.strings = [w]) :
    ∃ rest, literal d = some (w, rest) := by
  rw [parseCall_handlerStart] at h
  obtain ⟨⟨l, rest⟩, hitems, hcall⟩ := Option.bind_eq_some_iff.mp h
  obtain ⟨v, t, hv, hl⟩ := Json.parseItems_eq_some hitems
  rw [parseArgument_space, parseArgument_string] at hv
  obtain ⟨⟨w', t'⟩, hliteral, hstring⟩ := Option.map_eq_some_iff.mp hv
  obtain ⟨rfl, -⟩ := Prod.mk.inj hstring
  have hhead : ∃ l', l = .string w' :: l' := by
    rcases hl with ⟨-, rfl⟩ | ⟨t', l', -, -, rfl⟩
    · exact ⟨[], rfl⟩
    · exact ⟨l', rfl⟩
  obtain ⟨l', rfl⟩ := hhead
  split_ifs at hcall
  obtain rfl := Option.some.inj hcall
  have hw : w' = w := by
    have hfirst := congrArg List.head? hstrings
    exact Option.some.inj hfirst
  exact ⟨t', by rw [← hw]; exact hliteral⟩

/-- What the button calls. -/
def addToCart (texts : NumberTexts) (p : Product) : Call :=
  ⟨units "addToCart", [.number (texts.text p.productId), .string p.productName,
    .number (texts.text p.price)]⟩

theorem handlerEnd_eq (p : Product) :
    handlerEnd texts p = 39 :: 44 :: 32 :: (texts.text p.price ++ [41]) := by
  have hquote : units "', " = [39, 44, 32] := by decide
  have hclose : units ")" = [41] := by decide
  rw [handlerEnd, hquote, hclose]
  rfl

/-- Only the first unit has a meaning in a literal, and none has one in a value. -/
theorem handlerEnd_plain {p : Product} {c : UInt16} (hc : c ∈ handlerEnd texts p) :
    c ≠ 0 ∧ c ≠ 34 ∧ c ≠ 38 := by
  rw [handlerEnd_eq] at hc
  simp only [List.mem_append, List.mem_cons, List.not_mem_nil, or_false] at hc
  rcases hc with rfl | rfl | rfl | hc | rfl
  · decide
  · decide
  · decide
  · obtain ⟨hnull, -, hamp, -, hquote⟩ := number_plain p.price hc
    exact ⟨hnull, hquote, hamp⟩
  · decide

theorem handlerStart_plain {p : Product} {c : UInt16} (hc : c ∈ handlerStart texts p) : c ≠ 38 := by
  have hopen : (units "addToCart(").all (fun c => c ≠ 38) = true := by decide
  have hcomma : (units ", '").all (fun c => c ≠ 38) = true := by decide
  rw [handlerStart, List.mem_append, List.mem_append] at hc
  rcases hc with hc | hc | hc
  · exact of_decide_eq_true (List.all_eq_true.mp hopen c hc)
  · exact (number_plain p.productId hc).2.2.1
  · exact of_decide_eq_true (List.all_eq_true.mp hcomma c hc)

theorem parseCall_handler {p : Product} (hname : IsPlain p.productName) :
    parseCall (handlerStart texts p ++ (p.productName ++ handlerEnd texts p)) =
      some (addToCart texts p) := by
  have hliteral := literal_of_isPlain hname (44 :: 32 :: (texts.text p.price ++ [41]))
  have hstring : parseArgument (32 :: 39 :: (p.productName ++ handlerEnd texts p)) =
      some (.string p.productName, 44 :: 32 :: (texts.text p.price ++ [41])) := by
    rw [parseArgument_space, parseArgument_string, handlerEnd_eq, hliteral]
    rfl
  have hnumber : parseArgument (32 :: (texts.text p.price ++ [41])) =
      some (.number (texts.text p.price), [41]) := by
    rw [parseArgument_space]
    exact parseArgument_number (texts.ne_nil p.price) (fun c hc => isNumberUnit_of_mem _ hc) rfl
  rw [parseCall_handlerStart, Json.parseItems_comma (by decide) hstring rfl,
    Json.parseItems_close hnumber rfl]
  rfl

/-! ### The handler in its attribute -/

/-- A name without quotation marks ends with the handler. -/
theorem run_handler_of_not_mem {p : Product} (hnull : 0 ∉ p.productName)
    (hquote : 34 ∉ p.productName) {rest : JsString}
    (hrest : renderProductsRest texts p = handlerEnd texts p ++ 34 :: rest) :
    run names ownText (inHandler (handlerStart texts p))
        (p.productName ++ renderProductsRest texts p) =
      run names ownText (.beforeAttribute
        (button (handlerStart texts p ++ (p.productName ++ handlerEnd texts p)))) rest := by
  have hunits : ∀ c ∈ p.productName ++ handlerEnd texts p, c ≠ 0 ∧ c ≠ 34 := by
    intro c hc
    rcases List.mem_append.mp hc with hc | hc
    · exact ⟨fun h => hnull (h ▸ hc), fun h => hquote (h ▸ hc)⟩
    · exact ⟨(handlerEnd_plain hc).1, (handlerEnd_plain hc).2.1⟩
  rw [hrest, ← List.append_assoc]
  exact run_quoted (by decide) _ _ _ hunits rest

/-- The value goes up to the first quotation mark, which is in the name or behind the handler. -/
theorem run_handler {p : Product} (hnull : 0 ∉ p.productName) :
    ∃ a rest, run names ownText (inHandler (handlerStart texts p))
        (p.productName ++ renderProductsRest texts p) =
          run names ownText (.beforeAttribute (button (handlerStart texts p ++ a))) rest ∧
      (34 ∈ p.productName → a.length < p.productName.length) ∧
      (34 ∉ p.productName → a = p.productName ++ handlerEnd texts p) := by
  by_cases hquote : 34 ∈ p.productName
  · obtain ⟨a, b, hsplit, ha⟩ := List.eq_append_cons_of_mem hquote
    have hunits : ∀ c ∈ a, c ≠ 0 ∧ c ≠ 34 := by
      intro c hc
      refine ⟨?_, ?_⟩
      · rintro rfl
        exact hnull (by rw [hsplit]; exact List.mem_append_left _ hc)
      · rintro rfl
        exact ha hc
    refine ⟨a, b ++ renderProductsRest texts p, ?_, fun _ => ?_, fun h => absurd hquote h⟩
    · rw [hsplit, List.append_assoc, List.cons_append]
      exact run_quoted (by decide) _ _ _ hunits _
    · rw [hsplit, List.length_append, List.length_cons]
      omega
  · obtain ⟨rest, hrest⟩ := @exists_renderProductsRest texts p
    exact ⟨_, rest, run_handler_of_not_mem hnull hquote hrest, fun h => absurd h hquote,
      fun _ => rfl⟩

theorem handlers_of_onclick {t : Tag} {v : JsString} {attributes : List (JsString × JsString)}
    (h : t.attributes = (units "onclick", v) :: attributes) :
    handlers names t = parseCall (decode names true v) ::
      handlers names { t with attributes := attributes } := by
  have hon : (fun a : JsString × JsString => (units "on").isPrefixOf a.1) (units "onclick", v) =
      true := by
    show (units "on").isPrefixOf (units "onclick") = true
    decide
  rw [handlers, handlers, h, List.filter_cons, if_pos hon]
  rfl

/-- The first call is that of the button. -/
theorem parseCall_of_head_calls {v rest : JsString} {call : Call}
    (h : (calls names (run names ownText (.beforeAttribute (button v)) rest)).head? =
      some (some call)) : parseCall (decode names true v) = some call := by
  have hhead : (button v).attributes.head? = some (units "onclick", v) := rfl
  have hcases :=
    @run_of_head names ownText (.beforeAttribute (button v)) (button v) _ rfl hhead rest
  rcases hcases with hnil | ⟨t, items, hitems, ht⟩
  · rw [hnil] at h
    cases h
  · obtain ⟨attributes, hattributes⟩ := List.head?_eq_some_iff.mp ht
    have hcalls : calls names (.tag t :: items) = handlers names t ++ calls names items := rfl
    rw [hitems, hcalls, handlers_of_onclick hattributes] at h
    exact Option.some.inj h

theorem delimits_handlerEnd (p : Product) : Delimits (handlerEnd texts p) := by
  refine ⟨39, _, handlerEnd_eq p, ?_, by decide⟩
  rintro (h | h | h) <;> exact absurd h (by decide)

/-- There is no apostrophe behind the first one. -/
theorem length_le_of_handlerEnd {p : Product} {w body rest : JsString}
    (h : w ++ handlerEnd texts p = body ++ 39 :: rest) : body.length ≤ w.length := by
  have hnone : 39 ∉ 44 :: 32 :: (texts.text p.price ++ [41]) := by
    intro hmem
    simp only [List.mem_append, List.mem_cons, List.not_mem_nil, or_false] at hmem
    rcases hmem with hc | hc | hc | hc
    · exact absurd hc (by decide)
    · exact absurd hc (by decide)
    · exact absurd (isNumberUnit_of_mem p.price hc) (by decide)
    · exact absurd hc (by decide)
  rw [handlerEnd_eq] at h
  rcases List.append_eq_append_iff.mp h with ⟨a, rfl, hrest⟩ | ⟨a, rfl, -⟩
  · cases a with
    | nil => simp
    | cons x a =>
      rw [List.cons_append, List.cons.injEq] at hrest
      refine absurd ?_ hnone
      rw [hrest.2]
      simp
  · simp

/-- The name is the string that is passed only if it can be quoted. -/
theorem quotable_of_calls {p : Product} (hname : Inert names p.productName) {call : Call}
    (hcall : (calls names (run names ownText (inHandler (handlerStart texts p))
      (p.productName ++ renderProductsRest texts p))).head? = some (some call))
    (hstrings : call.strings = [p.productName]) :
    ∀ c ∈ p.productName, c ≠ 34 ∧ c ≠ 39 ∧ c ≠ 92 ∧ c ≠ 10 := by
  have hamp : 38 ∉ handlerStart texts p := fun h => handlerStart_plain h rfl
  obtain ⟨a, rest, hrun, hshort, hlong⟩ := @run_handler names ownText texts p hname.noNull
  rw [hrun] at hcall
  have hparse := parseCall_of_head_calls hcall
  rw [decode_append_of_not_mem hamp] at hparse
  obtain ⟨rest', hliteral⟩ := literal_of_parseCall hparse hstrings
  obtain ⟨body, hbody, hle, hplain⟩ := length_le_of_literal hliteral
  by_cases hquote : 34 ∈ p.productName
  · -- the value is too short
    have hdecode := @length_decode_le names true a
    have hlt := hshort hquote
    rw [hbody, List.length_append, List.length_cons] at hdecode
    omega
  · have hend : decode names true (handlerEnd texts p) = handlerEnd texts p :=
      decode_of_not_mem fun h => (handlerEnd_plain h).2.2 rfl
    rw [hlong hquote, decode_append (delimits_handlerEnd p),
      (decode_eq_self_iff _).mpr hname.noReference.of_text, hend] at hbody
    obtain ⟨heq, hbodyPlain⟩ := hplain (le_antisymm hle (length_le_of_handlerEnd hbody))
    intro c hc
    rw [heq] at hc
    obtain ⟨hapostrophe, hbackslash, hfeed, -⟩ := hbodyPlain c hc
    refine ⟨?_, hapostrophe, hbackslash, hfeed⟩
    rintro rfl
    exact hquote (by rw [heq]; exact hc)

/-! ### The card -/

/-- The items before the button. -/
def beforeButton (texts : NumberTexts) (amounts : Amounts) (p : Product) : List Html.Item :=
  (feed .data renderProductsStart).1 ++ (p.productName.map .char ++
    ((feed .data (units "</h3>")).1 ++
      ((feed .data (line 16 "<p class=\"text-gray-600 text-sm mb-3\">")).1 ++
        (p.description.map .char ++ ((feed .data (units "</p>")).1 ++
          ((feed .data (renderProductsMiddle texts amounts p)).1 ++ (line 20 "").map .char))))))

theorem noReturn_renderProductsRest (p : Product) : 13 ∉ renderProductsRest texts p :=
  fun h => ((passes_renderProductsRest p []).clean 13 h).2 rfl

theorem tokens_renderProducts {p : Product} (hname : Inert names p.productName)
    (hdescription : Inert names p.description) :
    tokens names ownText (renderProducts texts amounts p) = beforeButton texts amounts p ++
      run names ownText (inHandler (handlerStart texts p))
        (p.productName ++ renderProductsRest texts p) := by
  have hreturn : 13 ∉ p.productName ++ renderProductsRest texts p := by
    rw [List.mem_append, not_or]
    exact ⟨hname.noReturn, noReturn_renderProductsRest p⟩
  rw [renderProducts, tokens_card opensAt_render₁ opensAt_render₂ hname hdescription,
    (passes_renderProductsMiddle p).tokens_append, tokens_renderProductsButton p hreturn,
    beforeButton]
  simp only [List.append_assoc]

/-- The part of a template has no handler. -/
def quietPart (a : JsString) : Bool :=
  (feed .data a).1.all fun i =>
    match i with
    | .tag t => noHandler t
    | _ => true

theorem calls_of_quietPart {a : JsString} (h : quietPart a = true) :
    calls names (feed .data a).1 = [] := by
  refine calls_of_noHandler ?_
  intro t ht
  exact List.all_eq_true.mp h (.tag t) ht

theorem calls_beforeButton (p : Product) : calls names (beforeButton texts amounts p) = [] := by
  have hmiddle : calls names (feed .data (renderProductsMiddle texts amounts p)).1 = [] := by
    refine calls_of_noHandler ?_
    intro t ht
    have hquiet := ((passes_renderProductsMiddle p).tags t ht).1
    rw [quiet, Bool.and_eq_true] at hquiet
    exact hquiet.2
  simp only [beforeButton, calls_append, calls_map_char, hmiddle, List.append_nil,
    List.nil_append]
  rw [calls_of_quietPart (by decide), calls_of_quietPart (by decide),
    calls_of_quietPart (by decide), calls_of_quietPart (by decide)]
  rfl

/-- No heading and no paragraph comes with the button. -/
theorem contents_handler {p : Product} (hname : Inert names p.productName)
    (hquote : ∀ c ∈ p.productName, c ≠ 34) {name : JsString}
    (hharmless : ∀ t, harmless t = true → t.opens name = false) :
    contents name (run names ownText (inHandler (handlerStart texts p))
      (p.productName ++ renderProductsRest texts p)) = [] := by
  have hpasses := @passes_renderProductsRest texts p (handlerStart texts p ++ p.productName)
  have hamp : 38 ∉ renderProductsRest texts p := fun h => (hpasses.clean 38 h).1 rfl
  have hunits : ∀ c ∈ p.productName, c ≠ 0 ∧ c ≠ 34 :=
    fun c hc => ⟨fun h => hname.noNull (h ▸ hc), hquote c hc⟩
  have hrun : run names ownText (inHandler (handlerStart texts p))
      (p.productName ++ renderProductsRest texts p) =
        run names ownText (inHandler (handlerStart texts p ++ p.productName))
          (renderProductsRest texts p) := run_quoted_append _ _ _ hunits _
  rw [hrun, ← List.append_nil (renderProductsRest texts p),
    run_append hamp fun t ht => (hpasses.tags t ht).2, hpasses.feed_eq_data,
    contents_append fun t ht => hharmless t (hpasses.tags t ht).1]
  rfl

theorem opens_of_quiet {name : JsString} (h : ∀ t, harmless t = true → t.opens name = false)
    (t : Tag) (ht : quiet t = true) : t.opens name = false := by
  rw [quiet, Bool.and_eq_true] at ht
  exact h t ht.1

theorem isPlain_of_quotable {w : JsString} (hreturn : 13 ∉ w)
    (h : ∀ c ∈ w, c ≠ 34 ∧ c ≠ 39 ∧ c ≠ 92 ∧ c ≠ 10) : IsPlain w := by
  intro c hc
  obtain ⟨-, hapostrophe, hbackslash, hfeed⟩ := h c hc
  exact ⟨hapostrophe, hbackslash, hfeed, fun h => hreturn (h ▸ hc)⟩

/-- The handler of a name that can be quoted. -/
theorem parseCall_decode {p : Product} (hname : Inert names p.productName)
    (hquotable : ∀ c ∈ p.productName, c ≠ 34 ∧ c ≠ 39 ∧ c ≠ 92 ∧ c ≠ 10) :
    parseCall (decode names true
      (handlerStart texts p ++ (p.productName ++ handlerEnd texts p))) =
      some (addToCart texts p) := by
  have hstart : 38 ∉ handlerStart texts p := fun h => handlerStart_plain h rfl
  have hend : 38 ∉ handlerEnd texts p := fun h => (handlerEnd_plain h).2.2 rfl
  rw [decode_append_of_not_mem hstart, decode_append (delimits_handlerEnd p),
    (decode_eq_self_iff _).mpr hname.noReference.of_text, decode_of_not_mem hend]
  exact parseCall_handler (isPlain_of_quotable hname.noReturn hquotable)

theorem feed_renderProductsRest (p : Product) (v : JsString) {rest : JsString}
    (hrest : renderProductsRest texts p = handlerEnd texts p ++ 34 :: rest) :
    feed (inHandler v) (renderProductsRest texts p) =
      feed (.beforeAttribute (button (v ++ handlerEnd texts p))) rest := by
  have hunits : ∀ c ∈ handlerEnd texts p, c ≠ 0 ∧ c ≠ 34 :=
    fun c hc => ⟨(handlerEnd_plain hc).1, (handlerEnd_plain hc).2.1⟩
  have hvalue : feed (inHandler v) (handlerEnd texts p) =
      ([], inHandler (v ++ handlerEnd texts p)) := feed_quoted _ _ _ hunits
  rw [hrest, feed_append, hvalue]
  rfl

/-- The button is complete. -/
theorem run_button (p : Product) (v : JsString) {rest : JsString}
    (hrest : renderProductsRest texts p = handlerEnd texts p ++ 34 :: rest) :
    ∃ t items, run names ownText (.beforeAttribute (button (v ++ handlerEnd texts p))) rest =
        .tag t :: items ∧
      t.attributes.head? = some (units "onclick", v ++ handlerEnd texts p) := by
  have hpasses := @passes_renderProductsRest texts p v
  have hfeed := feed_renderProductsRest p v hrest
  have hamp : 38 ∉ rest := by
    intro hmem
    refine (hpasses.clean 38 ?_).1 rfl
    rw [hrest]
    exact List.mem_append_right _ (List.mem_cons_of_mem 34 hmem)
  have hdata := hpasses.feed_eq_data
  have hraw : NotRaw (feed (inHandler v) (renderProductsRest texts p)).1 :=
    fun t ht => (hpasses.tags t ht).2
  rw [hfeed] at hdata hraw
  have hcases :=
    @feed_of_head (.beforeAttribute (button (v ++ handlerEnd texts p))) _ _ rfl rfl rest
  rcases hcases with ⟨t, ht⟩ | ⟨t, items, hitems, ht⟩
  · rw [hdata] at ht
    cases ht
  · refine ⟨t, items ++ run names ownText .data [], ?_, ht⟩
    rw [← List.append_nil rest, run_append hamp hraw, hitems, hdata]
    rfl

/-- Where the name can be quoted, the first call is the one that is meant. -/
theorem head_calls_handler {p : Product} (hname : Inert names p.productName)
    (hquotable : ∀ c ∈ p.productName, c ≠ 34 ∧ c ≠ 39 ∧ c ≠ 92 ∧ c ≠ 10) :
    (calls names (run names ownText (inHandler (handlerStart texts p))
      (p.productName ++ renderProductsRest texts p))).head? = some (some (addToCart texts p)) := by
  obtain ⟨rest, hrest⟩ := @exists_renderProductsRest texts p
  obtain ⟨t, items, hitems, ht⟩ :=
    @run_button names ownText texts p (handlerStart texts p ++ p.productName) rest hrest
  obtain ⟨attributes, hattributes⟩ := List.head?_eq_some_iff.mp ht
  have hquote : 34 ∉ p.productName := fun h => (hquotable 34 h).1 rfl
  have hcalls : calls names (.tag t :: items) = handlers names t ++ calls names items := rfl
  rw [run_handler_of_not_mem hname.noNull hquote hrest, ← List.append_assoc, hitems, hcalls,
    handlers_of_onclick hattributes, List.append_assoc, parseCall_decode hname hquotable]
  rfl

theorem shown_dashboardNew_iff (p : Product) :
    Shown names .dashboardNew [p] (tokens names ownText (renderProducts texts amounts p)) ↔
      Safe names .dashboardNew p := by
  have hiff := @contents_card_iff_inert names ownText _ _ opensAt_render₁ opensAt_render₂
    p.productName p.description (renderProductsMiddle texts amounts p ++
      (renderProductsButton texts p ++ (p.productName ++ renderProductsRest texts p))) [] []
  have hcalls : Inert names p.productName → Inert names p.description →
      calls names (tokens names ownText (renderProducts texts amounts p)) =
        calls names (run names ownText (inHandler (handlerStart texts p))
          (p.productName ++ renderProductsRest texts p)) := by
    intro hname hdescription
    rw [tokens_renderProducts hname hdescription, calls_append, calls_beforeButton, List.nil_append]
  constructor
  · intro h
    obtain ⟨⟨hname, hdescription⟩, -, -⟩ := hiff.mp ⟨h.headings, h.paragraphs⟩
    obtain ⟨call, hcall, hstrings⟩ := h.arguments rfl
    rw [hcalls hname hdescription] at hcall
    exact ⟨hname, hdescription, by simp, fun _ => quotable_of_calls hname hcall hstrings⟩
  · intro h
    have hquotable := h.quotable rfl
    have hreturn : 13 ∉ p.productName ++ renderProductsRest texts p := by
      rw [List.mem_append, not_or]
      exact ⟨h.name.noReturn, noReturn_renderProductsRest p⟩
    have hrest : ∀ name, (∀ t, harmless t = true → t.opens name = false) →
        contents name (tokens names ownText (renderProductsMiddle texts amounts p ++
          (renderProductsButton texts p ++ (p.productName ++ renderProductsRest texts p)))) =
            [] := by
      intro name hname
      rw [(passes_renderProductsMiddle p).contents_append (opens_of_quiet hname),
        tokens_renderProductsButton p hreturn, contents_map_char,
        contents_handler h.name (fun c hc => (hquotable c hc).1) hname]
    obtain ⟨hheadings, hparagraphs⟩ := hiff.mpr ⟨⟨h.name, h.description⟩,
      hrest _ opens_h3_of_harmless, hrest _ opens_p_of_harmless⟩
    refine ⟨hheadings, hparagraphs, fun _ => ⟨addToCart texts p, ?_, rfl⟩⟩
    rw [hcalls h.name h.description, head_calls_handler h.name hquotable]

end Artha.Products.Cards
