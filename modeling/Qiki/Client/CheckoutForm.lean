import Qiki.Client.CheckoutTotal

/-! The form of the checkout page: what its schemas accept, and the payload that `ConfirmStep` builds
from it. -/
namespace Qiki.Client

open Orders Unicode Regex

/-- A message at a field of the form. -/
structure Issue where
  path : List String
  message : String
  deriving DecidableEq, Repr

def check (path : List String) (message : String) (valid : Bool) : List Issue :=
  if valid then [] else [⟨path, message⟩]

/-- `s.length`, in UTF-16 units. -/
def jsLength (s : Text) : ℕ := (s.map fun c => if c.toNat < 0x10000 then 1 else 2).sum

/-- `r.test(s)` for an expression between `^` and `$`. The expressions below name their characters, so
no class is looked up in the database. -/
def test (r : Regex) (s : Text) : Bool := (fullmatch ⟨Vietnamese.database, false⟩ r s).isSome

/-- `phoneRegex`: `^(\+84|0)[1-9][0-9]{8,9}$` -/
def phoneRegex : Regex :=
  seqOf [altOf [literal "+84", literal "0"], oneOf false [.range '1' '9'],
    upToTimes (oneOf false [.range '0' '9']) 8 1]

/-- `taxCodeRegex`: `^[0-9]{10}(-[0-9]{3})?$` -/
def taxCodeRegex : Regex :=
  let digits := times (oneOf false [.range '0' '9'])
  seq (digits 10) (optional (seq (literal "-") (digits 3)))

def deliveryCity : String := "TP. Hồ Chí Minh"

/-- The wards of `deliveryWardGroups`, each with its zone. -/
def deliveryWards : List (String × String) :=
  [("Bình Quới", "Bình Thạnh"), ("Bình Lợi Trung", "Bình Thạnh"), ("Gia Định", "Bình Thạnh"),
    ("Thạnh Mỹ Tây", "Bình Thạnh"), ("Bình Thạnh", "Bình Thạnh"), ("Hiệp Bình", "Thủ Đức"),
    ("Tam Bình", "Thủ Đức"), ("Thủ Đức", "Thủ Đức"), ("Linh Xuân", "Thủ Đức")]

def getDeliveryZoneByWard (ward : String) : Option String :=
  (deliveryWards.find? fun item => item.1 = ward).map Prod.snd

def isAllowedDeliveryWard (ward : String) : Bool := (getDeliveryZoneByWard ward).isSome

structure CheckoutFormState where
  customerName : String
  customerPhone : String
  customerEmail : String
  deliveryAddress : String
  deliveryWard : String
  deliveryDistrict : String
  deliveryCity : String
  deliveryNotes : String
  hasDifferentRecipient : Bool
  differentRecipientName : String
  differentRecipientPhone : String
  paymentMethod : PaymentMethod
  vatInvoiceRequested : Bool
  vatInfo : VatInfo
  customerNotes : String
  deriving DecidableEq, Repr

/-! The schemas; an empty list is a success. -/

/-- `cartItemSchema` and `cartStepSchema`; the quantity of a cart line is a whole number. -/
def cartStepSchema (items : List CartItem) : List Issue :=
  check ["items"] "Giỏ hàng đang trống" (!items.isEmpty) ++
    items.zipIdx.flatMap fun i =>
      check ["items", toString i.2, "quantity"] "Số lượng tối thiểu là 1" (1 ≤ i.1.quantity)

/-- The refinement of `customerDeliverySchema`. -/
def recipientIssues (form : CheckoutFormState) : List Issue :=
  if form.hasDifferentRecipient then
    check ["different_recipient_name"] "Tên người nhận quá ngắn"
      (2 ≤ jsLength (trim form.differentRecipientName)) ++
    check ["different_recipient_phone"] "Số điện thoại người nhận không hợp lệ"
      (test phoneRegex (trim form.differentRecipientPhone))
  else []

/-- `isEmail` is the check of `z.string().email()`. -/
def customerDeliverySchema (isEmail : Text → Bool) (form : CheckoutFormState) : List Issue :=
  let issues :=
    [check ["customer_name"] "Tên khách hàng quá ngắn" (2 ≤ jsLength (trim form.customerName)),
      check ["customer_phone"] "Số điện thoại Việt Nam không hợp lệ"
        (test phoneRegex (trim form.customerPhone)),
      check ["customer_email"] "Email không hợp lệ"
        (isEmail (trim form.customerEmail) || form.customerEmail == ""),
      check ["delivery_address"] "Địa chỉ giao hàng quá ngắn"
        (5 ≤ jsLength (trim form.deliveryAddress)),
      check ["delivery_ward"] "Chọn phường/xã trong khu vực giao hàng"
        (isAllowedDeliveryWard (String.ofList (trim form.deliveryWard))),
      check ["delivery_city"] "Chọn TP. Hồ Chí Minh" (form.deliveryCity == deliveryCity)].flatten
  -- a wrong literal aborts the parse, a value that is too short does not
  if form.deliveryCity == deliveryCity then issues ++ recipientIssues form else issues

/-- The payment method is one of the two by its type. -/
def paymentSchema (form : CheckoutFormState) : List Issue :=
  if form.vatInvoiceRequested then
    [check ["vat_info", "company_name"] "Tên công ty quá ngắn"
        (2 ≤ jsLength (trim form.vatInfo.companyName)),
      check ["vat_info", "tax_code"] "Mã số thuế không hợp lệ"
        (test taxCodeRegex (trim form.vatInfo.taxCode)),
      check ["vat_info", "address"] "Địa chỉ xuất hóa đơn quá ngắn"
        (5 ≤ jsLength (trim form.vatInfo.address))].flatten
  else []

/-! The payload. -/

@[irreducible] def optionalText (value : String) : Option String :=
  let trimmed := trim value
  if trimmed.length > 0 then some (String.ofList trimmed) else none

/-- The fields of the payload that come from the form; the schemas check trimmed values, and some of
these are sent as they were typed. -/
def CheckoutFormState.fields (form : CheckoutFormState) : CheckoutPayload where
  items := []
  customerName := form.customerName
  customerPhone := form.customerPhone
  customerEmail := optionalText form.customerEmail
  deliveryAddress := form.deliveryAddress
  deliveryWard := optionalText form.deliveryWard
  deliveryDistrict := getDeliveryZoneByWard form.deliveryWard
  deliveryCity := form.deliveryCity
  deliveryNotes := optionalText form.deliveryNotes
  differentRecipientName :=
    if form.hasDifferentRecipient then optionalText form.differentRecipientName else none
  differentRecipientPhone :=
    if form.hasDifferentRecipient then optionalText form.differentRecipientPhone else none
  paymentMethod := form.paymentMethod
  vatInvoiceRequested := form.vatInvoiceRequested
  vatInfo := if form.vatInvoiceRequested then some form.vatInfo else none
  customerNotes := optionalText form.customerNotes
  source := .website
  referralConversationId := none

/-! What the two expressions read. -/

/-- What the phone expression takes. -/
def IsWebPhone (s : Text) : Prop :=
  ∃ d ds, ('1' ≤ d ∧ d ≤ '9') ∧ (ds.length = 8 ∨ ds.length = 9) ∧ (∀ c ∈ ds, '0' ≤ c ∧ c ≤ '9') ∧
    (s = "+84" ++ d :: ds ∨ s = '0' :: d :: ds)

theorem test_iff {r : Regex} {p : Text → Prop} (h : Spells ⟨Vietnamese.database, false⟩ r p) (s : Text) :
    test r s = true ↔ p s := fullmatch_isSome h s

theorem test_phoneRegex (s : Text) : test phoneRegex s = true ↔ IsWebPhone s := by
  have hdigits : Spells ⟨Vietnamese.database, false⟩ (upToTimes (oneOf false [.range '0' '9']) 8 1)
      fun s => (s.length = 8 ∨ s.length = 9) ∧ ∀ c ∈ s, '0' ≤ c ∧ c ≤ '9' := by
    refine ((Spells.times _ 7).seq (Spells.oneOf _).optional).congr fun s => ⟨?_, ?_⟩
    · rintro ⟨x, y, ⟨hlength, hx⟩, hy, rfl⟩
      have hx' : ∀ c ∈ x, '0' ≤ c ∧ c ≤ '9' := fun c hc => (any_range rfl _ _ _).mp (hx c hc)
      rcases hy with ⟨d, hd, rfl⟩ | rfl
      · refine ⟨Or.inr (by rw [List.length_append, hlength]; rfl), fun c hc => ?_⟩
        rcases List.mem_append.mp hc with hc | hc
        · exact hx' c hc
        · rw [List.mem_singleton.mp hc]
          exact (any_range rfl _ _ _).mp hd
      · rw [List.append_nil]
        exact ⟨Or.inl hlength, hx'⟩
    · rintro ⟨hlength, hs⟩
      refine ⟨s.take 8, s.drop 8, ⟨?_, fun c hc => ?_⟩, ?_, (List.take_append_drop 8 s).symm⟩
      · rw [List.length_take]
        omega
      · exact (any_range rfl _ _ _).mpr (hs c (List.mem_of_mem_take hc))
      · rcases hlength with hlength | hlength
        · right
          rw [List.drop_eq_nil_iff]
          omega
        · left
          have hone : (s.drop 8).length = 1 := by
            rw [List.length_drop]
            omega
          obtain ⟨c, hc⟩ := List.length_eq_one_iff.mp hone
          refine ⟨c, (any_range rfl _ _ _).mpr (hs c ?_), hc⟩
          exact List.mem_of_mem_drop (hc ▸ List.mem_singleton_self c)
  have hcountry : Spells ⟨Vietnamese.database, false⟩ (altOf [literal "+84", literal "0"])
      fun s => s = "+84".toList ∨ s = ['0'] :=
    (Spells.literal rfl '+' ['8', '4']).alt (Spells.literal rfl '0' [])
  refine test_iff ((hcountry.seq ((Spells.oneOf _).seq hdigits)).congr fun s => ⟨?_, ?_⟩) s
  · rintro ⟨x, _, hx, ⟨_, ds, ⟨d, hd, rfl⟩, ⟨hlength, hds⟩, rfl⟩, rfl⟩
    refine ⟨d, ds, (any_range rfl _ _ _).mp hd, hlength, hds, ?_⟩
    rcases hx with rfl | rfl
    · exact Or.inl rfl
    · exact Or.inr rfl
  · rintro ⟨d, ds, hd, hlength, hds, hs | hs⟩
    · exact ⟨_, _, Or.inl rfl, ⟨[d], ds, ⟨d, (any_range rfl _ _ _).mpr hd, rfl⟩, ⟨hlength, hds⟩, rfl⟩, hs⟩
    · exact ⟨_, _, Or.inr rfl, ⟨[d], ds, ⟨d, (any_range rfl _ _ _).mpr hd, rfl⟩, ⟨hlength, hds⟩, rfl⟩, hs⟩

/-- Ten digits, and three behind a dash for a branch. -/
def IsTaxCode (s : Text) : Prop :=
  ∃ x y, (x.length = 10 ∧ ∀ c ∈ x, '0' ≤ c ∧ c ≤ '9') ∧
    (y = [] ∨ ∃ z, y = '-' :: z ∧ z.length = 3 ∧ ∀ c ∈ z, '0' ≤ c ∧ c ≤ '9') ∧ s = x ++ y

theorem spells_taxCode (db : Database) : Spells ⟨db, false⟩ taxCodeRegex IsTaxCode := by
  have hdigits (n : ℕ) : Spells ⟨db, false⟩ (times (oneOf false [.range '0' '9']) (n + 1))
      fun s => s.length = n + 1 ∧ ∀ c ∈ s, '0' ≤ c ∧ c ≤ '9' :=
    (Spells.times _ n).congr fun s => and_congr_right fun _ =>
      forall₂_congr fun c _ => any_range rfl _ _ _
  refine ((hdigits 9).seq ((Spells.literal rfl '-' []).seq (hdigits 2)).optional).congr fun s => ⟨?_, ?_⟩
  · rintro ⟨x, y, hx, hy, rfl⟩
    refine ⟨x, y, hx, ?_, rfl⟩
    rcases hy with ⟨_, z, rfl, hz, rfl⟩ | rfl
    · exact Or.inr ⟨z, rfl, hz⟩
    · exact Or.inl rfl
  · rintro ⟨x, y, hx, hy, rfl⟩
    refine ⟨x, y, hx, ?_, rfl⟩
    rcases hy with rfl | ⟨z, rfl, hz⟩
    · exact Or.inr rfl
    · exact Or.inl ⟨_, z, rfl, hz, rfl⟩

/-! The same two fields on the server. -/

/-- A mobile number in one of the two forms that the server takes. -/
def IsMobile (s : Text) : Prop := ∃ x, Chat.IsSubscriber x ∧ (s = "+84" ++ x ∨ s = '0' :: x)

/-- What `trim` removes, `str.strip` removes. -/
def SameBlanks (db : Database) (s : Text) : Prop := ∀ c ∈ s, jsSpace c = true → db.space c = true

/-- What is known of the blanks of Python. -/
structure PlainSpaces (db : Database) : Prop where
  space : db.space ' ' = true
  newline : db.space '\n' = true
  visible : ∀ c : Char, '!' ≤ c → c ≤ '~' → db.space c = false

/-- The characters of a phone number or a tax code. -/
def numberChar (c : Char) : Bool := ('0' ≤ c && c ≤ '9') || c == '+' || c == '-'

theorem visible_of_numberChar {c : Char} (h : numberChar c = true) : '!' ≤ c ∧ c ≤ '~' := by
  simp only [numberChar, Bool.or_eq_true, Bool.and_eq_true, decide_eq_true_iff, beq_iff_eq] at h
  rcases h with (⟨hlow, hhigh⟩ | rfl) | rfl
  · exact ⟨le_trans (by decide) hlow, le_trans hhigh (by decide)⟩
  · decide
  · decide

theorem jsSpace_of_visible {c : Char} (hlow : '!' ≤ c) (hhigh : c ≤ '~') : jsSpace c = false := by
  have hlow : 0x21 ≤ c.toNat := UInt32.le_iff_toNat_le.mp hlow
  have hhigh : c.toNat ≤ 0x7e := UInt32.le_iff_toNat_le.mp hhigh
  simp only [jsSpace, List.mem_cons, List.not_mem_nil, or_false, Bool.or_eq_false_iff,
    Bool.and_eq_false_iff, decide_eq_false_iff_not]
  omega

theorem numberChar_of_digit {c : Char} (h : '0' ≤ c ∧ c ≤ '9') : numberChar c = true := by
  rw [numberChar, decide_eq_true h.1, decide_eq_true h.2]
  rfl

theorem mem_isWebPhone {s : Text} (h : IsWebPhone s) : ∀ c ∈ s, ('0' ≤ c ∧ c ≤ '9') ∨ c = '+' := by
  obtain ⟨d, ds, hd, -, hds, hs⟩ := h
  have hbody : ∀ c ∈ d :: ds, ('0' ≤ c ∧ c ≤ '9') ∨ c = '+' := by
    intro c hc
    rcases List.mem_cons.mp hc with rfl | hc
    · exact Or.inl ⟨le_trans (by decide) hd.1, hd.2⟩
    · exact Or.inl (hds c hc)
  intro c hc
  rcases hs with rfl | rfl
  · rcases List.mem_append.mp hc with hc | hc
    · have hc : c = '+' ∨ c = '8' ∨ c = '4' := by simpa using hc
      rcases hc with rfl | rfl | rfl
      · exact Or.inr rfl
      · exact Or.inl (by decide)
      · exact Or.inl (by decide)
    · exact hbody c hc
  · rcases List.mem_cons.mp hc with rfl | hc
    · exact Or.inl (by decide)
    · exact hbody c hc

theorem numberChar_of_isWebPhone {s : Text} (h : IsWebPhone s) : ∀ c ∈ s, numberChar c = true := by
  intro c hc
  rcases mem_isWebPhone h c hc with hdigit | rfl
  · exact numberChar_of_digit hdigit
  · decide

theorem numberChar_of_isTaxCode {s : Text} (h : IsTaxCode s) : ∀ c ∈ s, numberChar c = true := by
  obtain ⟨x, y, ⟨-, hx⟩, hy, rfl⟩ := h
  intro c hc
  rcases List.mem_append.mp hc with hc | hc
  · exact numberChar_of_digit (hx c hc)
  · rcases hy with rfl | ⟨z, rfl, -, hz⟩
    · cases hc
    · rcases List.mem_cons.mp hc with rfl | hc
      · decide
      · exact numberChar_of_digit (hz c hc)

section
variable {db : Database} (hspaces : PlainSpaces db) {raw : Text}
include hspaces

/-- Around a number the server strips what the form trims, if it knows the blanks. -/
theorem strip_eq_trim (hnumber : ∀ c ∈ trim raw, numberChar c = true) (hblanks : SameBlanks db raw) :
    Text.strip db.space raw = trim raw := by
  refine Text.strip_eq_strip (fun c hc => ?_) hblanks
  obtain ⟨hlow, hhigh⟩ := visible_of_numberChar (hnumber c hc)
  exact hspaces.visible c hlow hhigh

/-- Where the stripped text holds no other blank, the server knows the blanks of the form. -/
theorem sameBlanks_of_strip (h : ∀ c ∈ Text.strip db.space raw, jsSpace c = true → c = ' ' ∨ c = '\n') :
    SameBlanks db raw := by
  intro c hc hjs
  obtain ⟨before, after, hraw, hbefore, hafter⟩ := Text.exists_strip db.space raw
  rw [hraw] at hc
  rcases List.mem_append.mp hc with hc | hc
  · exact hbefore c hc
  · rcases List.mem_append.mp hc with hc | hc
    · rcases h c hc hjs with rfl | rfl
      · exact hspaces.space
      · exact hspaces.newline
    · exact hafter c hc

/-- A tax code that the form takes is valid when the server knows the blanks around it. -/
theorem validateTaxCode_web (h : IsTaxCode (trim raw)) {value : String} (hvalue : value.toList = raw) :
    (∃ taxCode, validateTaxCode db value = .ok taxCode) ↔ SameBlanks db raw := by
  have hmatch := matchStart_finish (spells_taxCode db) (Text.strip db.space raw)
  have hvalid : (∃ taxCode, validateTaxCode db value = .ok taxCode) ↔
      IsTaxCode (Text.strip db.space raw) ∨
        ∃ t, IsTaxCode t ∧ Text.strip db.space raw = t ++ ['\n'] := by
    rw [← hmatch, validateTaxCode, hvalue]
    change (∃ taxCode, (if (matchStart ⟨db, false⟩ (seq taxCodeRegex finish)
      (Text.strip db.space raw)).isSome then _ else _) = _) ↔ _
    split_ifs with hmatched
    · exact iff_of_true ⟨_, rfl⟩ hmatched
    · exact iff_of_false (fun ⟨_, h⟩ => nomatch h) hmatched
  rw [hvalid]
  constructor
  · intro hcode
    refine sameBlanks_of_strip hspaces fun c hc hjs => Or.inr ?_
    have hnot (hnumber : numberChar c = true) : False := by
      obtain ⟨hlow, hhigh⟩ := visible_of_numberChar hnumber
      exact Bool.false_ne_true ((jsSpace_of_visible hlow hhigh).symm.trans hjs)
    rcases hcode with hcode | ⟨t, ht, heq⟩
    · exact (hnot (numberChar_of_isTaxCode hcode c hc)).elim
    · rw [heq] at hc
      rcases List.mem_append.mp hc with hc | hc
      · exact (hnot (numberChar_of_isTaxCode ht c hc)).elim
      · exact List.mem_singleton.mp hc
  · intro hblanks
    left
    rw [strip_eq_trim hspaces (numberChar_of_isTaxCode h) hblanks]
    exact h

/-- A number that the form takes is valid when it is a mobile number between blanks that the server
knows. -/
theorem validatePhone_web (h : IsWebPhone (trim raw)) :
    (Chat.validatePhone db raw).isSome = true ↔ SameBlanks db raw ∧ IsMobile (trim raw) := by
  have hnumber := numberChar_of_isWebPhone h
  have hdigits (hblanks : SameBlanks db raw) : Chat.phoneDigits db raw = trim raw := by
    rw [Chat.phoneDigits, strip_eq_trim hspaces hnumber hblanks, List.filter_eq_self]
    intro c hc
    rcases mem_isWebPhone h c hc with hdigit | rfl
    · have hspace : c ≠ ' ' := by
        rintro rfl
        revert hdigit
        decide
      have hdash : c ≠ '-' := by
        rintro rfl
        revert hdigit
        decide
      simp [hspace, hdash]
    · decide
  constructor
  · intro hsome
    obtain ⟨normalized, hnormalized⟩ := Option.isSome_iff_exists.mp hsome
    have hchars := Chat.phoneChar_of_validatePhone hnormalized
    have hblanks : SameBlanks db raw := by
      refine sameBlanks_of_strip hspaces fun c hc hjs => ?_
      have hchar := hchars c hc
      simp only [Chat.phoneChar, Bool.or_eq_true, Bool.and_eq_true, decide_eq_true_iff, List.mem_cons,
        List.not_mem_nil, or_false] at hchar
      rcases hchar with hdigit | rfl | rfl | rfl | rfl
      · obtain ⟨hlow, hhigh⟩ := visible_of_numberChar (numberChar_of_digit hdigit)
        exact absurd ((jsSpace_of_visible hlow hhigh).symm.trans hjs) Bool.false_ne_true
      · exact absurd hjs (by decide)
      · exact Or.inl rfl
      · exact absurd hjs (by decide)
      · exact Or.inr rfl
    refine ⟨hblanks, ?_⟩
    obtain ⟨x, tail, hx, htail, -, hphone⟩ := Chat.validatePhone_eq_some.mp hnormalized
    rw [hdigits hblanks] at hphone
    have hnewline : '\n' ∉ trim raw := fun hmem => absurd (hnumber _ hmem) (by decide)
    rcases htail with rfl | rfl
    · rw [List.append_nil] at hphone
      exact ⟨x, hx, hphone⟩
    · refine absurd ?_ hnewline
      rcases hphone with hphone | hphone
      · rw [hphone]
        simp
      · rw [hphone]
        simp
  · rintro ⟨hblanks, x, hx, hphone⟩
    rw [Option.isSome_iff_exists]
    refine ⟨_, Chat.validatePhone_eq_some.mpr ⟨x, [], hx, Or.inl rfl, rfl, ?_⟩⟩
    rw [hdigits hblanks, List.append_nil]
    exact hphone

end

/-! What the schemas have checked. -/

theorem check_eq_nil {path : List String} {message : String} {valid : Bool} :
    check path message valid = [] ↔ valid = true := by
  unfold check
  cases valid
  · exact iff_of_false (List.cons_ne_nil _ _) Bool.false_ne_true
  · exact iff_of_true rfl rfl

theorem cartStepSchema_eq_nil {items : List CartItem} (h : cartStepSchema items = []) :
    items ≠ [] ∧ ∀ item ∈ items, 1 ≤ item.quantity := by
  rw [cartStepSchema, List.append_eq_nil_iff, check_eq_nil, Bool.not_eq_true',
    List.isEmpty_eq_false_iff] at h
  refine ⟨h.1, fun item hitem => ?_⟩
  obtain ⟨n, hn, rfl⟩ := List.mem_iff_getElem.mp hitem
  have hmem : (items[n], n) ∈ items.zipIdx := by
    rw [List.mk_mem_zipIdx_iff_getElem?, List.getElem?_eq_getElem hn]
  exact of_decide_eq_true (check_eq_nil.mp (List.flatMap_eq_nil_iff.mp h.2 _ hmem))

/-- What an accepted delivery form has been checked for, as far as the server depends on it. -/
structure DeliveryChecked (form : CheckoutFormState) : Prop where
  customerPhone : IsWebPhone (trim form.customerPhone)
  deliveryWard : isAllowedDeliveryWard (String.ofList (trim form.deliveryWard)) = true
  deliveryCity : form.deliveryCity = Client.deliveryCity
  recipient : form.hasDifferentRecipient = true →
    2 ≤ jsLength (trim form.differentRecipientName) ∧ IsWebPhone (trim form.differentRecipientPhone)

theorem customerDeliverySchema_eq_nil {isEmail : Text → Bool} {form : CheckoutFormState}
    (h : customerDeliverySchema isEmail form = []) : DeliveryChecked form := by
  have hcity : form.deliveryCity = deliveryCity := by
    by_contra hne
    have hfalse : (form.deliveryCity == deliveryCity) = false := beq_eq_false_iff_ne.mpr hne
    simp [customerDeliverySchema, hfalse, check] at h
  have htrue : (form.deliveryCity == deliveryCity) = true := beq_iff_eq.mpr hcity
  simp only [customerDeliverySchema, htrue, if_true, List.append_eq_nil_iff, List.flatten_eq_nil_iff,
    List.forall_mem_cons, check_eq_nil, test_phoneRegex] at h
  obtain ⟨⟨-, hphone, -, -, hward, -⟩, hrecipient⟩ := h
  refine ⟨hphone, hward, hcity, fun hdifferent => ?_⟩
  simp only [recipientIssues, hdifferent, if_true, List.append_eq_nil_iff, check_eq_nil,
    test_phoneRegex, decide_eq_true_iff] at hrecipient
  exact hrecipient

theorem paymentSchema_eq_nil {form : CheckoutFormState} (h : paymentSchema form = [])
    (hvat : form.vatInvoiceRequested = true) : IsTaxCode (trim form.vatInfo.taxCode) := by
  simp only [paymentSchema, hvat, if_true, List.flatten_eq_nil_iff, List.forall_mem_cons,
    check_eq_nil, test_iff (spells_taxCode _)] at h
  exact h.2.1

theorem getDeliveryZoneByWard_length {ward zone : String} (h : getDeliveryZoneByWard ward = some zone) :
    ward.length ≤ 100 ∧ zone.length ≤ 100 := by
  obtain ⟨item, hitem, rfl⟩ := Option.map_eq_some_iff.mp h
  have hname := List.find?_some hitem
  have hlengths : ∀ item ∈ deliveryWards, item.1.length ≤ 100 ∧ item.2.length ≤ 100 := by decide
  rw [← of_decide_eq_true hname]
  exact hlengths item (List.mem_of_find?_eq_some hitem)

/-! The coupon of the page. -/

/-- The codes of the stored coupons keep their pattern. -/
def ShopEvent.StoredCodes : ShopEvent → Prop
  | .couponAnswered _ coupons _ => ∀ c ∈ coupons, isCouponCode c.code = true
  | _ => True

section
variable {r : PayloadReader}

/-- The page has no coupon, or one with the code of a stored coupon. -/
def StoredCoupon (page : ShopPage) : Prop :=
  ∀ code, page.couponCode = some code → isCouponCode code = true

theorem storedCoupon_apply {page : ShopPage} {e : ShopEvent} (h : StoredCoupon page)
    (he : e.StoredCodes) : StoredCoupon (page.apply r e) := by
  have hnone (page : ShopPage) : StoredCoupon page.clearCoupon := fun _ hcode => nomatch hcode
  cases e with
  | addItem product quantity => exact h
  | removeItem productId => exact h
  | updateQuantity productId quantity => exact h
  | clearCart => exact h
  | applyCoupon codeInput =>
    simp only [ShopPage.apply]
    split_ifs
    · exact h
    · exact h
  | couponAnswered request coupons now =>
    simp only [ShopPage.apply]
    split
    · exact h
    · split
      next result hresult =>
        obtain ⟨c, hfound, -⟩ := validateCoupon_eq_some hresult
        intro code hcode
        obtain rfl : result.code = code := Option.some.inj hcode
        rw [← Table.key_of_find hfound]
        exact he c (Table.mem_of_find hfound)
      next => exact hnone _
  | couponFailed request =>
    simp only [ShopPage.apply]
    split_ifs
    · exact hnone _
    · exact h
  | removeCoupon => exact hnone page
  | resetCheckout => exact hnone page
  | reload => exact fun _ hcode => nomatch hcode

theorem storedCoupon_after {events : List ShopEvent} (h : ∀ e ∈ events, e.StoredCodes) :
    StoredCoupon (ShopPage.after r events) := by
  have hrun (page : ShopPage) (hpage : StoredCoupon page) :
      StoredCoupon (events.foldl (ShopPage.apply r) page) := by
    induction events generalizing page with
    | nil => exact hpage
    | cons e events ih =>
      exact ih (fun e' he' => h e' (List.mem_cons_of_mem e he')) _
        (storedCoupon_apply hpage (h e List.mem_cons_self))
  exact hrun {} fun _ hcode => nomatch hcode

end

/-! The two validators. -/

/-- What the server asks of a cart and a form that the page accepts. -/
structure ServerTakes (r : PayloadReader) (items : List CartItem) (form : CheckoutFormState) : Prop where
  quantities : ∀ item ∈ items, item.quantity ≤ 100
  customerName : hasLength 2 255 form.customerName = true
  customerPhone : SameBlanks r.db form.customerPhone ∧ IsMobile (trim form.customerPhone)
  customerEmail : ∀ email, optionalText form.customerEmail = some email → (r.email email).isSome = true
  deliveryAddress : hasLength 5 500 form.deliveryAddress = true
  deliveryNotes : (trim form.deliveryNotes).length ≤ 1000
  recipient : form.hasDifferentRecipient = true →
    hasLength 2 255 (String.ofList (trim form.differentRecipientName)) = true ∧
      IsMobile (trim form.differentRecipientPhone)
  vatInfo : form.vatInvoiceRequested = true → hasLength 2 255 form.vatInfo.companyName = true ∧
    SameBlanks r.db form.vatInfo.taxCode ∧ hasLength 5 500 form.vatInfo.address = true
  customerNotes : (trim form.customerNotes).length ≤ 1000

theorem optionalText_eq_some {value text : String} :
    optionalText value = some text ↔ trim value ≠ [] ∧ String.ofList (trim value) = text := by
  simp only [optionalText]
  split_ifs with hlength
  · rw [and_iff_right (List.length_pos_iff.mp hlength), Option.some.injEq]
  · refine iff_of_false (fun h => nomatch h) fun h => hlength (List.length_pos_iff.mpr h.1)

theorem hasLength_zero {n : ℕ} {s : String} : hasLength 0 n s = true ↔ s.length ≤ n := by
  simp [hasLength]

theorem optionalText_length {value : String} {n : ℕ} :
    (∀ text, optionalText value = some text → hasLength 0 n text = true) ↔ (trim value).length ≤ n := by
  simp only [optionalText_eq_some, hasLength_zero]
  constructor
  · intro h
    by_cases hne : trim value = []
    · rw [hne]
      exact Nat.zero_le n
    · have hlength := h _ ⟨hne, rfl⟩
      rwa [String.length_ofList] at hlength
  · rintro h text ⟨-, rfl⟩
    rwa [String.length_ofList]

theorem validatePhoneField_isOk {db : Database} {value : String} (hvalue : value ≠ "") :
    (∃ phone, validatePhoneField db (some value) = .ok phone) ↔
      (Chat.validatePhone db value.toList).isSome = true := by
  simp only [validatePhoneField, hvalue, if_false]
  cases Chat.validatePhone db value.toList with
  | none => simp
  | some normalized => simp

theorem ne_nil_of_isWebPhone {s : Text} (h : IsWebPhone s) : s ≠ [] := by
  obtain ⟨d, ds, -, -, -, rfl | rfl⟩ := h
  · exact List.cons_ne_nil _ _
  · exact List.cons_ne_nil _ _

section
variable {r : PayloadReader} (hspaces : PlainSpaces r.db) {form : CheckoutFormState}
include hspaces

theorem customerPhone_iff (h : IsWebPhone (trim form.customerPhone)) :
    (∃ phone, validatePhoneField r.db (some form.customerPhone) = .ok phone) ↔
      SameBlanks r.db form.customerPhone ∧ IsMobile (trim form.customerPhone) := by
  have hne : form.customerPhone ≠ "" := by
    intro hempty
    rw [hempty] at h
    exact ne_nil_of_isWebPhone h rfl
  rw [validatePhoneField_isOk hne]
  exact validatePhone_web hspaces h

/-- The phone of the recipient is sent trimmed. -/
theorem recipientPhone_iff {value : String} (h : IsWebPhone (trim value)) :
    (∃ phone, validatePhoneField r.db (optionalText value) = .ok phone) ↔ IsMobile (trim value) := by
  have hne := ne_nil_of_isWebPhone h
  have htrim : trim (trim value) = trim value := Text.strip_strip jsSpace value.toList
  have hblanks : SameBlanks r.db (trim value) := by
    intro c hc hjs
    obtain ⟨hlow, hhigh⟩ := visible_of_numberChar (numberChar_of_isWebPhone h c hc)
    exact absurd ((jsSpace_of_visible hlow hhigh).symm.trans hjs) Bool.false_ne_true
  have hsome : optionalText value = some (String.ofList (trim value)) :=
    optionalText_eq_some.mpr ⟨hne, rfl⟩
  have hnonempty : String.ofList (trim value) ≠ "" := by
    intro hempty
    exact hne (String.ofList_injective hempty)
  rw [hsome, validatePhoneField_isOk hnonempty, String.toList_ofList,
    validatePhone_web hspaces (htrim.symm ▸ h), htrim]
  exact and_iff_right hblanks

omit hspaces in
/-- A recipient has a name and a phone on the server, or neither. -/
theorem recipient_paired (hchecked : DeliveryChecked form)
    (hphone : ∃ phone, validatePhoneField r.db form.fields.differentRecipientPhone = .ok phone) :
    form.fields.differentRecipientName.isSome =
      (validatePhoneField r.db form.fields.differentRecipientPhone).toOption.join.isSome := by
  cases hdifferent : form.hasDifferentRecipient with
  | false =>
    simp only [CheckoutFormState.fields, hdifferent, Bool.false_eq_true, if_false]
    rfl
  | true =>
    obtain ⟨hname, hweb⟩ := hchecked.recipient hdifferent
    simp only [CheckoutFormState.fields, hdifferent, if_true] at hphone ⊢
    have hnameSome : optionalText form.differentRecipientName =
        some (String.ofList (trim form.differentRecipientName)) := by
      refine optionalText_eq_some.mpr ⟨fun hempty => ?_, rfl⟩
      rw [hempty] at hname
      exact absurd hname (by decide)
    have hphoneSome : optionalText form.differentRecipientPhone =
        some (String.ofList (trim form.differentRecipientPhone)) :=
      optionalText_eq_some.mpr ⟨ne_nil_of_isWebPhone hweb, rfl⟩
    have hnonempty : String.ofList (trim form.differentRecipientPhone) ≠ "" := fun hempty =>
      ne_nil_of_isWebPhone hweb (String.ofList_injective hempty)
    rw [hphoneSome] at hphone ⊢
    have hvalid := (validatePhoneField_isOk hnonempty).mp hphone
    obtain ⟨normalized, hnormalized⟩ := Option.isSome_iff_exists.mp hvalid
    rw [hnameSome]
    simp only [validatePhoneField, hnonempty, if_false, hnormalized]
    rfl

/-- The server takes what the page accepted exactly when it takes each field of it. -/
theorem web_form_accepted {isEmail : Text → Bool} {events : List ShopEvent}
    (hstored : ∀ e ∈ events, e.StoredCodes) {items : List CartItem}
    (hcart : cartStepSchema items = []) (hdelivery : customerDeliverySchema isEmail form = [])
    (hpayment : paymentSchema form = []) :
    (∃ data, modelValidate r
        (ShopPage.payload { ShopPage.after r events with items := items } form.fields) = .ok data) ↔
      ServerTakes r items form := by
  obtain ⟨hitems, hquantities⟩ := cartStepSchema_eq_nil hcart
  have hchecked := customerDeliverySchema_eq_nil hdelivery
  have hcoupon := storedCoupon_after (r := r) hstored
  rw [modelValidate_isOk, fieldErrors_eq_nil, validateDependentFields_isOk]
  constructor
  · rintro ⟨hfields, -⟩
    constructor
    · intro item hitem
      exact (hfields.quantities _ (List.mem_map_of_mem hitem)).2
    · exact hfields.customerName
    · exact (customerPhone_iff hspaces hchecked.customerPhone).mp hfields.customerPhone
    · exact hfields.customerEmail
    · exact hfields.deliveryAddress
    · exact optionalText_length.mp hfields.deliveryNotes
    · intro hdifferent
      obtain ⟨hname, hweb⟩ := hchecked.recipient hdifferent
      have hnameSent : form.fields.differentRecipientName = optionalText form.differentRecipientName :=
        if_pos hdifferent
      have hphoneSent :
          form.fields.differentRecipientPhone = optionalText form.differentRecipientPhone :=
        if_pos hdifferent
      have hnonempty : trim form.differentRecipientName ≠ [] := by
        intro hempty
        rw [hempty] at hname
        exact absurd hname (by decide)
      constructor
      · refine hfields.recipientName _ (hnameSent.trans ?_)
        exact optionalText_eq_some.mpr ⟨hnonempty, rfl⟩
      · have hphone : ∃ phone, validatePhoneField r.db form.fields.differentRecipientPhone = .ok phone :=
          hfields.recipientPhone
        rw [hphoneSent] at hphone
        exact (recipientPhone_iff hspaces hweb).mp hphone
    · intro hvat
      have hvatInfo := hfields.vatInfo form.vatInfo (if_pos hvat)
      exact ⟨hvatInfo.companyName,
        (validateTaxCode_web hspaces (paymentSchema_eq_nil hpayment hvat) rfl).mp hvatInfo.taxCode,
        hvatInfo.address⟩
    · exact optionalText_length.mp hfields.customerNotes
  · intro htakes
    have hrecipientPhone :
        ∃ phone, validatePhoneField r.db form.fields.differentRecipientPhone = .ok phone := by
      cases hdifferent : form.hasDifferentRecipient with
      | false => exact ⟨none, by simp [CheckoutFormState.fields, hdifferent, validatePhoneField]⟩
      | true =>
        simp only [CheckoutFormState.fields, hdifferent, if_true]
        exact (recipientPhone_iff hspaces (hchecked.recipient hdifferent).2).mpr
          (htakes.recipient hdifferent).2
    refine ⟨?_, recipient_paired hchecked hrecipientPhone, ?_⟩
    · constructor
      · simpa [ShopPage.payload] using hitems
      · intro i hi
        obtain ⟨item, hitem, rfl⟩ := List.mem_map.mp hi
        exact ⟨hquantities item hitem, htakes.quantities item hitem⟩
      · exact htakes.customerName
      · exact (customerPhone_iff hspaces hchecked.customerPhone).mpr htakes.customerPhone
      · exact htakes.customerEmail
      · exact htakes.deliveryAddress
      · intro ward hward
        obtain ⟨-, rfl⟩ := optionalText_eq_some.mp hward
        obtain ⟨zone, hzone⟩ := Option.isSome_iff_exists.mp hchecked.deliveryWard
        exact hasLength_zero.mpr (getDeliveryZoneByWard_length hzone).1
      · intro zone hzone
        exact hasLength_zero.mpr (getDeliveryZoneByWard_length hzone).2
      · change hasLength 2 100 form.deliveryCity = true
        rw [hchecked.deliveryCity]
        decide
      · exact optionalText_length.mpr htakes.deliveryNotes
      · intro name hname
        simp only [ShopPage.payload, CheckoutFormState.fields] at hname
        split_ifs at hname with hdifferent
        obtain ⟨-, rfl⟩ := optionalText_eq_some.mp hname
        exact (htakes.recipient hdifferent).1
      · exact hrecipientPhone
      · intro vat hvatInfo
        simp only [ShopPage.payload, CheckoutFormState.fields] at hvatInfo
        split_ifs at hvatInfo with hvat
        obtain rfl := Option.some.inj hvatInfo
        obtain ⟨hname, hblanks, haddress⟩ := htakes.vatInfo hvat
        exact ⟨hname, (validateTaxCode_web hspaces (paymentSchema_eq_nil hpayment hvat) rfl).mpr hblanks,
          haddress⟩
      · exact optionalText_length.mpr htakes.customerNotes
      · intro code hcode
        have hlength := (Bool.and_eq_true _ _).mp (hcoupon code hcode)
        rw [hasLength_zero]
        have hfifty := hlength.1
        rw [hasLength, Bool.and_eq_true, decide_eq_true_iff, decide_eq_true_iff] at hfifty
        exact hfifty.2
    · change form.vatInvoiceRequested = (Option.map _ form.fields.vatInfo).isSome
      rw [Option.isSome_map]
      cases hvat : form.vatInvoiceRequested with
      | false => simp [CheckoutFormState.fields, hvat]
      | true => simp [CheckoutFormState.fields, hvat]

end

/-! A form with the phone of a landline. -/

theorem plainSpaces_database : PlainSpaces Vietnamese.database where
  space := by decide
  newline := by decide
  visible := fun c hlow hhigh => by
    by_contra hspace
    rw [Bool.not_eq_false] at hspace
    have hmem : c ∈ [' ', '\t', '\n', '\r', '\u000B', '\u000C', '\u00A0'] := of_decide_eq_true hspace
    have hbelow : [' ', '\t', '\n', '\r', '\u000B', '\u000C', '\u00A0'].all
        (fun c => !('!' ≤ c && c ≤ '~')) = true := by decide
    have hout := List.all_eq_true.mp hbelow c hmem
    simp [hlow, hhigh] at hout

def webForm (phone : String) : CheckoutFormState where
  customerName := "Lan"
  customerPhone := phone
  customerEmail := ""
  deliveryAddress := "12 Lê Lợi"
  deliveryWard := "Gia Định"
  deliveryDistrict := "Bình Thạnh"
  deliveryCity := deliveryCity
  deliveryNotes := ""
  hasDifferentRecipient := false
  differentRecipientName := ""
  differentRecipientPhone := ""
  paymentMethod := .cod
  vatInvoiceRequested := false
  vatInfo := ⟨"", "", ""⟩
  customerNotes := ""

def webLine : CartItem where
  productId := 1
  name := "Gas 12kg"
  brand := "Petro"
  category := some .gas
  sizeKg := 12
  unit := "kg"
  price := 250000
  listPrice := some 250000
  quantity := 1

def hasAt (s : Text) : Bool := s.contains ['@']

theorem web_form_accepted_lan : ∃ data, modelValidate sampleReader
    (ShopPage.payload { ShopPage.after sampleReader [] with items := [webLine] }
      (webForm " 0901234567").fields) = .ok data := by
  have hdelivery : customerDeliverySchema hasAt (webForm " 0901234567") = [] := by decide +kernel
  have hstored : ∀ e ∈ ([] : List ShopEvent), e.StoredCodes := fun _ h => nomatch h
  refine (web_form_accepted (r := sampleReader) plainSpaces_database hstored (by decide) hdelivery
    (by decide)).mpr ?_
  constructor
  · decide
  · decide
  · have hblanks : (" 0901234567" : Text).all
        (fun c => !jsSpace c || Vietnamese.database.space c) = true := by decide
    refine ⟨fun c hc hjs => ?_, "901234567",
      ⟨'9', "01234567", rfl, by decide, by decide, by simp⟩, Or.inr (by decide)⟩
    have hblank := List.all_eq_true.mp hblanks c hc
    rw [hjs] at hblank
    exact hblank
  · intro email hemail
    have hnone : optionalText (webForm " 0901234567").customerEmail = none := by decide +kernel
    cases hnone.symm.trans hemail
  · decide
  · decide
  · exact fun h => nomatch h
  · exact fun h => nomatch h
  · decide

/-- The page takes the number of a landline, the server does not. -/
theorem landline_refused :
    modelValidate sampleReader
        (ShopPage.payload { ShopPage.after sampleReader [] with items := [webLine] }
          (webForm "0281234567").fields) =
        .error [⟨["customer_phone"], some "Invalid Vietnamese phone number: 0281234567"⟩] ∧
      ¬ ∀ (r : PayloadReader) (isEmail : Text → Bool) (events : List ShopEvent) (items : List CartItem)
        (form : CheckoutFormState), PlainSpaces r.db → (∀ e ∈ events, e.StoredCodes) →
        cartStepSchema items = [] → customerDeliverySchema isEmail form = [] → paymentSchema form = [] →
        ∃ data, modelValidate r
          (ShopPage.payload { ShopPage.after r events with items := items } form.fields) = .ok data := by
  have hrefused : modelValidate sampleReader
      (ShopPage.payload { ShopPage.after sampleReader [] with items := [webLine] }
        (webForm "0281234567").fields) =
      .error [⟨["customer_phone"], some "Invalid Vietnamese phone number: 0281234567"⟩] := by
    decide +kernel
  refine ⟨hrefused, fun hclaim => ?_⟩
  obtain ⟨data, hdata⟩ := hclaim sampleReader hasAt [] [webLine] (webForm "0281234567")
    plainSpaces_database (fun _ h => nomatch h) (by decide) (by decide +kernel) (by decide)
  cases hrefused.symm.trans hdata

end Qiki.Client
