import TxPlatform.Lib.Dict
import TxPlatform.Lib.Regex
import TxPlatform.Dotnet.Http

/-! # Validation of new orders (CreateOrderValidator.cs, PriceCatalog.cs)

`validate` is the validator over whatever the JSON binder can hand it: the request, its list, the
lines of the list and their texts can all be null. The errors are a dictionary in the order of its
first insertions.

`$` of .NET also matches before a final line feed, so a payment token or a SKU with one more line
feed passes its pattern; and a null line is read before it is looked at. These are the two ways in
which the validator misses `WellFormed`.
-/

namespace TxPlatform

structure CreateOrderLine where
  sku : Option String
  quantity : I32

structure CreateOrderRequest where
  items : Option (List (Option CreateOrderLine))
  paymentToken : Option String
  shippingZone : Option String

/-- The prices by SKU, compared ordinally. -/
structure PriceCatalog where
  prices : Dict String Decimal

def PriceCatalog.tryGetPrice (catalog : PriceCatalog) (sku : String) : Option Decimal :=
  catalog.prices.get sku

namespace CreateOrderValidator

open Regex

def maxLines : Nat := 20
def maxQuantity : Int := 100
def shippingZones : List String := ["domestic", "international", "restricted"]

def isDigit (c : Char) : Bool := '0' ≤ c && c ≤ '9'

/-- `[a-z0-9_]` -/
def isTokenChar (c : Char) : Bool := ('a' ≤ c && c ≤ 'z') || isDigit c || c == '_'

/-- `^SKU-[0-9]{4}$` -/
def skuPattern : Regex := .seq .start (.seq (.word "SKU-") (.seq (.times (.set isDigit) 4 4) .finish))

/-- `^tok_[a-z0-9_]{3,64}$` -/
def paymentTokenPattern : Regex :=
  .seq .start (.seq (.word "tok_") (.seq (.times (.set isTokenChar) 3 64) .finish))

/-- `[0-9]{12,19}` -/
def cardNumberPattern : Regex := .times (.set isDigit) 12 19

abbrev Errors := List (String × List String)

/-- The local function `Add`. -/
def add (errors : Errors) (field message : String) : Errors :=
  match errors with
  | [] => [(field, [message])]
  | (name, messages) :: rest =>
    if name = field then (name, messages ++ [message]) :: rest else (name, messages) :: add rest field message

/-- The checks of one SKU: the errors, and the SKUs seen afterwards. -/
def checkSku (catalog : PriceCatalog) (index : Nat) (sku : Option String) (seen : List String)
    (errors : Errors) : Errors × List String :=
  let field := s!"items[{index}].sku"
  match sku with
  | none => (add errors field "must look like SKU-1234", seen)
  | some sku =>
    if !skuPattern.isMatch sku then (add errors field "must look like SKU-1234", seen)
    else if (catalog.tryGetPrice sku).isNone then (add errors field "is not in the catalog", seen)
    else if sku ∈ seen then (add errors field "appears more than once", seen)
    else (errors, sku :: seen)

def checkQuantity (index : Nat) (quantity : I32) (errors : Errors) : Errors :=
  if quantity.toInt < 1 ∨ maxQuantity < quantity.toInt then
    add errors s!"items[{index}].quantity" s!"must be between 1 and {maxQuantity}"
  else errors

/-- The loop over the lines. Reading the SKU of a null line throws. -/
def checkLines (catalog : PriceCatalog) : List (Option CreateOrderLine) → Nat → List String → Errors →
    Except Exn Errors
  | [], _, _, errors => .ok errors
  | none :: _, _, _, _ => .error .nullValue
  | some line :: rest, index, seen, errors =>
    let (errors, seen) := checkSku catalog index line.sku seen errors
    checkLines catalog rest (index + 1) seen (checkQuantity index line.quantity errors)

def checkPaymentToken (paymentToken : Option String) (errors : Errors) : Errors :=
  match paymentToken with
  | none => add errors "paymentToken" "must be an opaque token such as tok_test_approved"
  | some token =>
    if !paymentTokenPattern.isMatch token then
      add errors "paymentToken" "must be an opaque token such as tok_test_approved"
    else if cardNumberPattern.isMatch token then add errors "paymentToken" "must not contain card numbers"
    else errors

def checkShippingZone (shippingZone : Option String) (errors : Errors) : Errors :=
  let message := "must be one of: " ++ ", ".intercalate shippingZones
  match shippingZone with
  | none => add errors "shippingZone" message
  | some zone => if zone ∈ shippingZones then errors else add errors "shippingZone" message

/-- `Validate`. -/
def validate (request : Option CreateOrderRequest) (catalog : PriceCatalog) : Except Exn Errors :=
  match request with
  | none => .ok (add [] "body" "a JSON order is required")
  | some request => do
    let items := request.items.getD []
    let errors := if items.length = 0 ∨ maxLines < items.length then
      add [] "items" s!"between 1 and {maxLines} lines are required" else []
    let errors ← checkLines catalog items 0 [] errors
    return checkShippingZone request.shippingZone (checkPaymentToken request.paymentToken errors)

/-! ## Well-formed orders

`tail` says what may follow a SKU and a payment token: nothing (`Nothing`) in a well-formed order, a
final line feed as well (`FinalLineFeed`) in what the patterns let pass. -/

def Nothing (rest : List Char) : Prop := rest = []

/-- `start`, then `least` to `most` characters of a class, then what `tail` allows. -/
def Shape (start : String) (accepts : Char → Bool) (least most : Nat) (tail : List Char → Prop)
    (text : String) : Prop :=
  ∃ body rest, text.toList = start.toList ++ body ++ rest ∧ least ≤ body.length ∧ body.length ≤ most ∧
    (∀ c ∈ body, accepts c = true) ∧ tail rest

/-- `SKU-` and four digits. -/
def SkuShape : (List Char → Prop) → String → Prop := Shape "SKU-" isDigit 4 4

/-- `tok_` and 3 to 64 characters. -/
def TokenShape : (List Char → Prop) → String → Prop := Shape "tok_" isTokenChar 3 64

/-- A run of 12 or more digits. -/
def HasCardNumber (token : String) : Prop :=
  ∃ before digits after, token.toList = before ++ digits ++ after ∧ 12 ≤ digits.length ∧
    ∀ c ∈ digits, isDigit c = true

structure LineWellFormed (tail : List Char → Prop) (catalog : PriceCatalog) (line : CreateOrderLine)
    (sku : String) : Prop where
  given : line.sku = some sku
  shape : SkuShape tail sku
  priced : (catalog.tryGetPrice sku).isSome = true
  quantity : 1 ≤ line.quantity.toInt ∧ line.quantity.toInt ≤ maxQuantity

structure WellFormedWith (tail : List Char → Prop) (catalog : PriceCatalog) (request : CreateOrderRequest) :
    Prop where
  count : 1 ≤ (request.items.getD []).length ∧ (request.items.getD []).length ≤ maxLines
  lines : ∀ item ∈ request.items.getD [], ∃ line sku, item = some line ∧
    LineWellFormed tail catalog line sku
  distinct : ((request.items.getD []).map fun item => item.bind (·.sku)).Nodup
  token : ∃ token, request.paymentToken = some token ∧ TokenShape tail token ∧ ¬ HasCardNumber token
  zone : ∃ zone ∈ shippingZones, request.shippingZone = some zone

/-- A well-formed order; a null request is none. -/
def WellFormed (request : Option CreateOrderRequest) (catalog : PriceCatalog) : Prop :=
  ∃ order, request = some order ∧ WellFormedWith Nothing catalog order

theorem skuPattern_isMatch {sku : String} : skuPattern.isMatch sku = true ↔ SkuShape FinalLineFeed sku :=
  isMatch_word_times

theorem paymentTokenPattern_isMatch {token : String} :
    paymentTokenPattern.isMatch token = true ↔ TokenShape FinalLineFeed token :=
  isMatch_word_times

theorem cardNumberPattern_isMatch {token : String} :
    cardNumberPattern.isMatch token = true ↔ HasCardNumber token :=
  isMatch_times (by decide)

/-! ## What each check adds -/

theorem add_ne_nil (errors : Errors) (field message : String) : add errors field message ≠ [] := by
  cases errors with
  | nil => simp [add]
  | cons entry rest =>
    simp only [add]
    split <;> simp

/-- The SKU of a line passes: it is shaped like one, priced and new. -/
def SkuAccepted (catalog : PriceCatalog) (seen : List String) (line : CreateOrderLine) (sku : String) : Prop :=
  line.sku = some sku ∧ SkuShape FinalLineFeed sku ∧ (catalog.tryGetPrice sku).isSome = true ∧ sku ∉ seen

theorem checkSku_cases (catalog : PriceCatalog) (index : Nat) (line : CreateOrderLine) (seen : List String)
    (errors : Errors) :
    (∃ sku, SkuAccepted catalog seen line sku ∧
      checkSku catalog index line.sku seen errors = (errors, sku :: seen)) ∨
    ((∀ sku, ¬ SkuAccepted catalog seen line sku) ∧
      ∃ errors', errors' ≠ [] ∧ checkSku catalog index line.sku seen errors = (errors', seen)) := by
  unfold checkSku SkuAccepted
  cases hsku : line.sku with
  | none => exact .inr ⟨by simp, _, add_ne_nil _ _ _, rfl⟩
  | some sku =>
    simp only [Option.some.injEq, ← skuPattern_isMatch]
    by_cases hshape : skuPattern.isMatch sku = true
    · by_cases hpriced : (catalog.tryGetPrice sku).isSome = true
      · by_cases hseen : sku ∈ seen
        · refine .inr ⟨?_, add errors s!"items[{index}].sku" "appears more than once", add_ne_nil _ _ _, ?_⟩
          · rintro _ ⟨rfl, -, -, hnew⟩
            exact hnew hseen
          · simp [hshape, Option.isNone_eq_false_iff.2 hpriced, hseen]
        · exact .inl ⟨sku, ⟨rfl, hshape, hpriced, hseen⟩,
            by simp [hshape, Option.isNone_eq_false_iff.2 hpriced, hseen]⟩
      · refine .inr ⟨?_, add errors s!"items[{index}].sku" "is not in the catalog", add_ne_nil _ _ _, ?_⟩
        · rintro _ ⟨rfl, -, hpriced', -⟩
          exact hpriced hpriced'
        · simp only [Option.not_isSome_iff_eq_none] at hpriced
          simp [hshape, hpriced]
    · refine .inr ⟨?_, add errors s!"items[{index}].sku" "must look like SKU-1234", add_ne_nil _ _ _, ?_⟩
      · rintro _ ⟨rfl, hshape', -, -⟩
        exact hshape hshape'
      · simp [hshape]

theorem checkQuantity_eq_nil {index : Nat} {quantity : I32} {errors : Errors} :
    checkQuantity index quantity errors = [] ↔
      errors = [] ∧ 1 ≤ quantity.toInt ∧ quantity.toInt ≤ maxQuantity := by
  unfold checkQuantity
  split
  · rename_i hout
    simp only [add_ne_nil, false_iff, not_and]
    omega
  · rename_i hin
    simp only [iff_self_and]
    omega

theorem checkPaymentToken_eq_nil {paymentToken : Option String} {errors : Errors} :
    checkPaymentToken paymentToken errors = [] ↔ errors = [] ∧
      ∃ token, paymentToken = some token ∧ TokenShape FinalLineFeed token ∧ ¬ HasCardNumber token := by
  cases paymentToken with
  | none => simp [checkPaymentToken, add_ne_nil]
  | some token =>
    simp only [checkPaymentToken, Option.some.injEq, ← paymentTokenPattern_isMatch,
      ← cardNumberPattern_isMatch]
    by_cases hshape : paymentTokenPattern.isMatch token = true
    · by_cases hcard : cardNumberPattern.isMatch token = true
      · simp [hshape, hcard, add_ne_nil]
      · simp [hshape, hcard]
    · simp [hshape, add_ne_nil]

theorem checkShippingZone_eq_nil {shippingZone : Option String} {errors : Errors} :
    checkShippingZone shippingZone errors = [] ↔
      errors = [] ∧ ∃ zone ∈ shippingZones, shippingZone = some zone := by
  cases shippingZone with
  | none => simp [checkShippingZone, add_ne_nil]
  | some zone =>
    by_cases hzone : zone ∈ shippingZones
    · simp [checkShippingZone, hzone]
    · simp [checkShippingZone, hzone, add_ne_nil]

/-! ## The loop over the lines -/

/-- Every line passes, given the SKUs that the lines before have. -/
def LinesAccepted (catalog : PriceCatalog) : List String → List (Option CreateOrderLine) → Prop
  | _, [] => True
  | _, none :: _ => False
  | seen, some line :: rest => (1 ≤ line.quantity.toInt ∧ line.quantity.toInt ≤ maxQuantity) ∧
      ∃ sku, SkuAccepted catalog seen line sku ∧ LinesAccepted catalog (sku :: seen) rest

/-- A null line ends the loop with an exception. -/
theorem checkLines_of_null (catalog : PriceCatalog) {items : List (Option CreateOrderLine)}
    (h : none ∈ items) (index : Nat) (seen : List String) (errors : Errors) :
    checkLines catalog items index seen errors = .error .nullValue := by
  induction items generalizing index seen errors with
  | nil => simp at h
  | cons item rest ih =>
    cases item with
    | none => rfl
    | some line => exact ih (by simpa using h) _ _ _

theorem checkLines_ok (catalog : PriceCatalog) {items : List (Option CreateOrderLine)}
    (h : none ∉ items) (index : Nat) (seen : List String) (errors : Errors) :
    ∃ errors', checkLines catalog items index seen errors = .ok errors' ∧
      (errors' = [] ↔ errors = [] ∧ LinesAccepted catalog seen items) := by
  induction items generalizing index seen errors with
  | nil => exact ⟨errors, rfl, by simp [LinesAccepted]⟩
  | cons item rest ih =>
    cases item with
    | none => simp at h
    | some line =>
      have hrest : none ∉ rest := by simpa using h
      obtain ⟨sku, haccepted, hcheck⟩ | ⟨hrejected, errors₁, hne, hcheck⟩ :=
        checkSku_cases catalog index line seen errors
      · obtain ⟨errors', hok, hiff⟩ := ih hrest (index + 1) (sku :: seen)
          (checkQuantity index line.quantity errors)
        refine ⟨errors', by simpa [checkLines, hcheck] using hok, ?_⟩
        rw [hiff, checkQuantity_eq_nil, and_assoc]
        refine and_congr_right fun _ => and_congr_right fun _ => ⟨fun hlines => ⟨sku, haccepted, hlines⟩, ?_⟩
        rintro ⟨sku', haccepted', hlines⟩
        have hsku : sku = sku' := Option.some.inj (haccepted.1.symm.trans haccepted'.1)
        rwa [hsku]
      · obtain ⟨errors', hok, hiff⟩ := ih hrest (index + 1) seen (checkQuantity index line.quantity errors₁)
        refine ⟨errors', by simpa [checkLines, hcheck] using hok, ?_⟩
        rw [hiff, checkQuantity_eq_nil]
        constructor
        · rintro ⟨⟨hnil, -⟩, -⟩
          exact absurd hnil hne
        · rintro ⟨-, -, sku, haccepted, -⟩
          exact absurd haccepted (hrejected sku)

/-- The lines that pass one after the other are the well-formed ones with distinct SKUs. -/
theorem linesAccepted_iff {catalog : PriceCatalog} {seen : List String}
    {items : List (Option CreateOrderLine)} :
    LinesAccepted catalog seen items ↔
      (∀ item ∈ items, ∃ line sku, item = some line ∧ sku ∉ seen ∧
        LineWellFormed FinalLineFeed catalog line sku) ∧
      (items.map fun item => item.bind (·.sku)).Nodup := by
  induction items generalizing seen with
  | nil => simp [LinesAccepted]
  | cons item rest ih =>
    cases item with
    | none => simp [LinesAccepted]
    | some line =>
      simp only [LinesAccepted, ih, List.map_cons, List.nodup_cons]
      constructor
      · rintro ⟨hquantity, sku, ⟨hsku, hshape, hpriced, hnew⟩, hrest, hdistinct⟩
        refine ⟨?_, ?_, hdistinct⟩
        · intro item hitem
          rw [List.mem_cons] at hitem
          obtain rfl | hitem := hitem
          · exact ⟨line, sku, rfl, hnew, hsku, hshape, hpriced, hquantity⟩
          · obtain ⟨line', sku', rfl, hnew', hline'⟩ := hrest item hitem
            exact ⟨line', sku', rfl, fun hmem => hnew' (List.mem_cons_of_mem _ hmem), hline'⟩
        · intro hmem
          obtain ⟨item, hitem, heq⟩ := List.mem_map.1 hmem
          obtain ⟨line', sku', rfl, hnew', hline'⟩ := hrest item hitem
          have hsame : sku' = sku := by
            simpa [hsku, hline'.given] using heq
          exact hnew' (by simp [hsame])
      · rintro ⟨hlines, hfirst, hdistinct⟩
        obtain ⟨line', sku, hline', hnew, hwell⟩ := hlines (some line) (by simp)
        cases hline'
        refine ⟨hwell.quantity, sku, ⟨hwell.given, hwell.shape, hwell.priced, hnew⟩, ?_, hdistinct⟩
        intro item hitem
        obtain ⟨line', sku', rfl, hnew', hline'⟩ := hlines item (by simp [hitem])
        refine ⟨line', sku', rfl, ?_, hline'⟩
        rw [List.mem_cons, not_or]
        refine ⟨?_, hnew'⟩
        rintro rfl
        exact hfirst (List.mem_map.2 ⟨some line', hitem, by simp [hline'.given, hwell.given]⟩)

/-- **What `validate` does**: a null line makes it throw; otherwise it answers, and accepts what is
well-formed up to final line feeds. -/
theorem validate_cases (order : CreateOrderRequest) (catalog : PriceCatalog) :
    (none ∈ order.items.getD [] → validate (some order) catalog = .error .nullValue) ∧
    (none ∉ order.items.getD [] → ∃ errors, validate (some order) catalog = .ok errors ∧
      (errors = [] ↔ WellFormedWith FinalLineFeed catalog order)) := by
  constructor
  · intro hnull
    simp [validate, checkLines_of_null catalog hnull]
  · intro hnull
    obtain ⟨errors, hok, hiff⟩ := checkLines_ok catalog hnull 0 []
      (if (order.items.getD []).length = 0 ∨ maxLines < (order.items.getD []).length then
        add [] "items" s!"between 1 and {maxLines} lines are required" else [])
    refine ⟨checkShippingZone order.shippingZone (checkPaymentToken order.paymentToken errors), ?_, ?_⟩
    · simp only [validate, hok]
      rfl
    · rw [checkShippingZone_eq_nil, checkPaymentToken_eq_nil, hiff, linesAccepted_iff]
      constructor
      · rintro ⟨⟨⟨hcount, hlines, hdistinct⟩, htoken⟩, hzone⟩
        refine ⟨?_, fun item hitem => ?_, hdistinct, htoken, hzone⟩
        · split at hcount
          · exact absurd hcount (add_ne_nil _ _ _)
          · omega
        · obtain ⟨line, sku, hline, -, hwell⟩ := hlines item hitem
          exact ⟨line, sku, hline, hwell⟩
      · intro hwell
        have hcount := hwell.count
        refine ⟨⟨⟨if_neg (by omega), fun item hitem => ?_, hwell.distinct⟩, hwell.token⟩, hwell.zone⟩
        obtain ⟨line, sku, hline, hline'⟩ := hwell.lines item hitem
        exact ⟨line, sku, hline, by simp, hline'⟩

/-! ## Where the validator and the rules part -/

def EndsWithLineFeed (text : String) : Prop := text.toList.getLast? = some '\n'

/-- The payment token or some SKU ends with a line feed. -/
def HasFinalLineFeed (order : CreateOrderRequest) : Prop :=
  (∃ token, order.paymentToken = some token ∧ EndsWithLineFeed token) ∨
    ∃ line sku, some line ∈ order.items.getD [] ∧ line.sku = some sku ∧ EndsWithLineFeed sku

/-- Without a line feed at its end a text that passes the pattern has the exact shape. -/
theorem shape_nothing_iff {start text : String} {accepts : Char → Bool} {least most : Nat}
    (hleast : 0 < least) (haccepts : accepts '\n' = false) :
    Shape start accepts least most Nothing text ↔
      Shape start accepts least most FinalLineFeed text ∧ ¬ EndsWithLineFeed text := by
  constructor
  · rintro ⟨body, rest, htext, hmin, hmax, hbody, rfl⟩
    refine ⟨⟨body, [], htext, hmin, hmax, hbody, .inl rfl⟩, fun hends => ?_⟩
    have hne : body ≠ [] := by
      rintro rfl
      simp at hmin
      omega
    rw [EndsWithLineFeed, htext, List.append_nil, List.getLast?_append_of_ne_nil _ hne] at hends
    rw [hbody _ (List.mem_of_getLast? hends)] at haccepts
    cases haccepts
  · rintro ⟨⟨body, rest, htext, hmin, hmax, hbody, rfl | rfl⟩, hends⟩
    · exact ⟨body, [], htext, hmin, hmax, hbody, rfl⟩
    · refine absurd ?_ hends
      rw [EndsWithLineFeed, htext]
      simp

theorem wellFormedWith_nothing_iff {catalog : PriceCatalog} {order : CreateOrderRequest} :
    WellFormedWith Nothing catalog order ↔
      WellFormedWith FinalLineFeed catalog order ∧ ¬ HasFinalLineFeed order := by
  have hsku : ∀ {sku}, SkuShape Nothing sku ↔ SkuShape FinalLineFeed sku ∧ ¬ EndsWithLineFeed sku :=
    shape_nothing_iff (by decide) (by decide)
  have htoken : ∀ {token}, TokenShape Nothing token ↔
      TokenShape FinalLineFeed token ∧ ¬ EndsWithLineFeed token :=
    shape_nothing_iff (by decide) (by decide)
  constructor
  · intro h
    obtain ⟨token, hgiven, hshape, hcard⟩ := h.token
    refine ⟨⟨h.count, fun item hitem => ?_, h.distinct, ⟨token, hgiven, (htoken.1 hshape).1, hcard⟩, h.zone⟩,
      ?_⟩
    · obtain ⟨line, sku, hline, hwell⟩ := h.lines item hitem
      exact ⟨line, sku, hline, hwell.given, (hsku.1 hwell.shape).1, hwell.priced, hwell.quantity⟩
    · rintro (⟨token', hgiven', hends⟩ | ⟨line, sku, hmem, hgiven', hends⟩)
      · rw [hgiven] at hgiven'
        cases hgiven'
        exact (htoken.1 hshape).2 hends
      · obtain ⟨line', sku', hline', hwell⟩ := h.lines _ hmem
        cases hline'
        rw [hwell.given] at hgiven'
        cases hgiven'
        exact (hsku.1 hwell.shape).2 hends
  · rintro ⟨h, hno⟩
    obtain ⟨token, hgiven, hshape, hcard⟩ := h.token
    refine ⟨h.count, fun item hitem => ?_, h.distinct,
      ⟨token, hgiven, htoken.2 ⟨hshape, fun hends => hno (.inl ⟨token, hgiven, hends⟩)⟩, hcard⟩, h.zone⟩
    obtain ⟨line, sku, rfl, hwell⟩ := h.lines item hitem
    exact ⟨line, sku, rfl, hwell.given,
      hsku.2 ⟨hwell.shape, fun hends => hno (.inr ⟨line, sku, hitem, hwell.given, hends⟩)⟩,
      hwell.priced, hwell.quantity⟩

/-- **When the validator is right.** For every request and catalog: it answers without throwing, and
accepts exactly a well-formed order, if and only if no line is null and the order is not one that is
well-formed but for a final line feed in its payment token or a SKU. -/
theorem validate_correct_iff (request : Option CreateOrderRequest) (catalog : PriceCatalog) :
    (∃ errors, validate request catalog = .ok errors ∧ (errors = [] ↔ WellFormed request catalog)) ↔
      ∀ order, request = some order → none ∉ order.items.getD [] ∧
        ¬ (WellFormedWith FinalLineFeed catalog order ∧ HasFinalLineFeed order) := by
  cases request with
  | none => simp [validate, WellFormed, add]
  | some order =>
    obtain ⟨hthrows, hanswers⟩ := validate_cases order catalog
    have hwell : WellFormed (some order) catalog ↔
        WellFormedWith FinalLineFeed catalog order ∧ ¬ HasFinalLineFeed order := by
      simp [WellFormed, wellFormedWith_nothing_iff]
    simp only [Option.some.injEq, forall_eq', hwell]
    by_cases hnull : none ∈ order.items.getD []
    · simp [hthrows hnull, hnull]
    · obtain ⟨errors, hok, hiff⟩ := hanswers hnull
      simp only [hok, Except.ok.injEq, exists_eq_left', hiff, hnull, not_false_eq_true, true_and]
      tauto

/-- A line feed behind the payment token passes, and a null line throws. -/
theorem validate_misses_lineFeed_and_null :
    let catalog : PriceCatalog := ⟨(∅ : Dict String Decimal).set "SKU-1001" ⟨1250, 2, by decide, by decide⟩⟩
    let order (items : List (Option CreateOrderLine)) (token : String) : CreateOrderRequest :=
      ⟨some items, some token, some "domestic"⟩
    (validate (some (order [some ⟨some "SKU-1001", 2⟩] "tok_test_approved\n")) catalog = .ok [] ∧
      ¬ WellFormed (some (order [some ⟨some "SKU-1001", 2⟩] "tok_test_approved\n")) catalog) ∧
    validate (some (order [none] "tok_test_approved")) catalog = .error .nullValue := by
  intro catalog order
  refine ⟨⟨by rfl, ?_⟩, by rfl⟩
  rintro ⟨order', horder, hwell⟩
  cases horder
  exact (wellFormedWith_nothing_iff.1 hwell).2 (.inl ⟨_, rfl, by rfl⟩)

end CreateOrderValidator

end TxPlatform
