import Qiki.Arithmetic.FixedPoint
import Qiki.Data.Patch
import Qiki.Data.Stages
import Qiki.Orders.Session

/-! `update_coupon`: a partial payload over a stored coupon, its checks, and the columns and
constraints of the table. -/
namespace Qiki.Orders

open Rounding

/-- A `datetime` of a payload. Without a zone it is a time on the wall. -/
inductive Moment
  | zoned (t : Timestamp)
  | wall (t : ℕ)
  deriving DecidableEq, Repr

/-- `a <= b`; Python does not compare a time with a zone and one without. -/
def Moment.le? : Moment → Moment → Option Bool
  | .zoned a, .zoned b => some (a ≤ b)
  | .wall a, .wall b => some (a ≤ b)
  | .zoned _, .wall _ => none
  | .wall _, .zoned _ => none

/-- What the driver makes of a moment: a time on the wall is one of the zone of the server. -/
def Moment.toUtc (localTime : ℕ → Timestamp) : Moment → Timestamp
  | .zoned t => t
  | .wall t => localTime t

/-- What an admin request ends with: an exception of the application or of the database, or one of
Python's own. -/
inductive Raised
  | exn (e : Exn)
  | invalidOperation
  | typeError
  deriving DecidableEq, Repr

/-- The exceptions derived from `GasBotException`. -/
def Exn.isDomain : Exn → Bool
  | .dbapi _ => false
  | .missingGreenlet => false
  | _ => true

def Raised.isDomain : Raised → Bool
  | .exn e => e.isDomain
  | .invalidOperation => false
  | .typeError => false

structure CouponUpdate where
  discountType : Patch DiscountType := .unset
  value : Patch Decimal := .unset
  minOrder : Patch Decimal := .unset
  maxDiscount : Patch Decimal := .unset
  usageLimit : Patch ℕ := .unset
  perUserLimit : Patch ℕ := .unset
  active : Patch Bool := .unset
  startsAt : Patch Moment := .unset
  endsAt : Patch Moment := .unset
  deriving DecidableEq, Repr

/-- The bounds of the fields of `CouponUpdate`. -/
structure CouponUpdate.Checked (payload : CouponUpdate) : Prop where
  value : payload.value.All (0 < ·)
  minOrder : payload.minOrder.All (0 ≤ ·)
  maxDiscount : payload.maxDiscount.All (0 < ·)
  usageLimit : payload.usageLimit.All (1 ≤ ·)
  perUserLimit : payload.perUserLimit.All (1 ≤ ·)

/-- The rules that `CouponBase` enforces when a coupon is created. -/
structure Coupon.Valid (coupon : Coupon) : Prop where
  value : 0 < coupon.value
  percent : coupon.discountType = .percent → coupon.value ≤ 100
  minOrder : 0 ≤ coupon.minOrder
  maxDiscount : ∀ cap ∈ coupon.maxDiscount, 0 < cap
  usageLimit : ∀ limit ∈ coupon.usageLimit, 1 ≤ limit
  perUserLimit : ∀ limit ∈ coupon.perUserLimit, 1 ≤ limit
  window : ∀ starts ∈ coupon.startsAt, ∀ ends ∈ coupon.endsAt, starts < ends

section
variable (coupon : Coupon) (payload : CouponUpdate)

/-! `update_data.get(key, coupon.key)` -/

def mergedType : Option DiscountType := payload.discountType.get (some coupon.discountType)

def mergedValue : Option Decimal := payload.value.get (some coupon.value)

def mergedStarts : Option Moment := payload.startsAt.get (coupon.startsAt.map .zoned)

def mergedEnds : Option Moment := payload.endsAt.get (coupon.endsAt.map .zoned)

/-- `_validate_update` -/
def validateUpdate : Except Raised Unit := do
  match mergedValue coupon payload with
  | none => throw .invalidOperation
  | some value =>
    if mergedType coupon payload = some .percent ∧ 100 < value then
      throw (.exn (.validation "percent value cannot exceed 100" "invalid_coupon"))
    match mergedStarts coupon payload, mergedEnds coupon payload with
    | some starts, some ends =>
      match ends.le? starts with
      | none => throw .typeError
      | some true => throw (.exn (.validation "ends_at must be after starts_at" "invalid_coupon"))
      | some false => return ()
    | _, _ => return ()

end

/-! The columns of the table. -/

/-- `NUMERIC(10, 2)` -/
def money : FixedPoint := ⟨10, 2⟩

def bindMoney (x : Decimal) : Except Exn Decimal :=
  match money.store x with
  | some y => .ok y
  | none => .error (.dbapi "22003")

/-- The driver refuses an integer of more than 32 bits. -/
def bindInteger (n : ℕ) : Except Exn ℕ := if n < 2 ^ 31 then .ok n else .error (.dbapi "22000")

/-- A column `NOT NULL`. -/
def required {α : Type} (value : Option α) : Except Exn α :=
  match value with
  | some a => .ok a
  | none => .error (.dbapi "23502")

/-- The constraints `ck_coupons_*`. -/
def checkCoupon (coupon : Coupon) : Except Exn Coupon :=
  if 0 < coupon.value ∧ 0 ≤ coupon.minOrder ∧ (∀ cap ∈ coupon.maxDiscount, 0 < cap) ∧
      (∀ limit ∈ coupon.usageLimit, 1 ≤ limit) ∧ ∀ limit ∈ coupon.perUserLimit, 1 ≤ limit then
    .ok coupon
  else .error (.dbapi "23514")

/-- The `UPDATE` of a flush: the given values are bound, then the row is built and checked. -/
def writeCoupon (localTime : ℕ → Timestamp) (coupon : Coupon) (payload : CouponUpdate) :
    Except Exn Coupon := do
  let usageLimit ← payload.usageLimit.traverse bindInteger
  let perUserLimit ← payload.perUserLimit.traverse bindInteger
  let value ← payload.value.traverse bindMoney
  let minOrder ← payload.minOrder.traverse bindMoney
  let maxDiscount ← payload.maxDiscount.traverse bindMoney
  let newType ← required (mergedType coupon payload)
  let newValue ← required (value.get (some coupon.value))
  let newMinOrder ← required (minOrder.get (some coupon.minOrder))
  let newActive ← required (payload.active.get (some coupon.active))
  checkCoupon { coupon with
    discountType := newType
    value := newValue
    minOrder := newMinOrder
    maxDiscount := maxDiscount.get coupon.maxDiscount
    usageLimit := usageLimit.get coupon.usageLimit
    perUserLimit := perUserLimit.get coupon.perUserLimit
    active := newActive
    startsAt := (mergedStarts coupon payload).map (Moment.toUtc localTime)
    endsAt := (mergedEnds coupon payload).map (Moment.toUtc localTime) }

def updateCoupon (localTime : ℕ → Timestamp) (couponId : Uuid) (payload : CouponUpdate)
    (admin : User) (coupons : List Coupon) : Except Raised (Coupon × List Coupon) := do
  if !admin.isAdmin then throw (.exn (.forbidden "Admin role required" "admin_required"))
  match Table.find Coupon.id couponId coupons with
  | none => throw (.exn (.notFound "Coupon not found" "coupon_not_found"))
  | some merged =>
    validateUpdate merged payload
    match writeCoupon localTime merged payload with
    | .error e => throw (.exn e)
    | .ok coupon => return (coupon, Table.modify Coupon.id couponId (fun _ => coupon) coupons)

/-- The request in its transaction: what it raised, or the coupon that it answers with, and the
committed coupons. -/
def serveCouponUpdate (localTime : ℕ → Timestamp) (couponId : Uuid) (payload : CouponUpdate)
    (admin : User) (coupons : List Coupon) : Except Raised Coupon × List Coupon :=
  match updateCoupon localTime couponId payload admin coupons with
  | .ok (coupon, updated) => (.ok coupon, updated)
  | .error e => (.error e, coupons)

/-- The request raises an exception of the application and leaves the coupons as they were, or it
leaves a valid coupon. -/
def KeepsCouponValid (localTime : ℕ → Timestamp) (couponId : Uuid) (payload : CouponUpdate)
    (admin : User) (coupons : List Coupon) : Prop :=
  match serveCouponUpdate localTime couponId payload admin coupons with
  | (.error e, after) => e.isDomain = true ∧ after = coupons
  | (.ok coupon, after) => Table.find Coupon.id couponId after = some coupon ∧ coupon.Valid

/-! When it does. -/

section
variable (coupon : Coupon) (payload : CouponUpdate)

def PercentExceeded : Prop :=
  mergedType coupon payload = some .percent ∧ ∃ value ∈ mergedValue coupon payload, 100 < value

/-- The bounds of the window, where both are there, can be compared. -/
def WindowComparable : Prop :=
  ∀ starts ∈ mergedStarts coupon payload, ∀ ends ∈ mergedEnds coupon payload, ends.le? starts ≠ none

def WindowEmpty : Prop :=
  ∃ starts ∈ mergedStarts coupon payload, ∃ ends ∈ mergedEnds coupon payload,
    ends.le? starts = some true

end

/-- No column loses its value, and the columns take the values that are given. -/
structure CouponUpdate.Storable (payload : CouponUpdate) : Prop where
  discountType : payload.discountType ≠ .null
  minOrder : payload.minOrder ≠ .null
  active : payload.active ≠ .null
  valueFits : payload.value.All fun x => 0 < money.round x ∧ money.round x < money.bound
  minOrderFits : payload.minOrder.All fun x => money.round x < money.bound
  maxDiscountFits : payload.maxDiscount.All fun x => 0 < money.round x ∧ money.round x < money.bound
  usageLimitFits : payload.usageLimit.All (· < 2 ^ 31)
  perUserLimitFits : payload.perUserLimit.All (· < 2 ^ 31)

/-- Two times on the wall are in the same order in the zone of the server. -/
def CouponUpdate.OrderKept (localTime : ℕ → Timestamp) (payload : CouponUpdate) : Prop :=
  ∀ starts ends, payload.startsAt = .given (.wall starts) → payload.endsAt = .given (.wall ends) →
    starts < ends → localTime starts < localTime ends

/-- The condition on the payload, over the stored coupon. -/
def CouponUpdate.Settled (localTime : ℕ → Timestamp) (coupon : Coupon) (payload : CouponUpdate) :
    Prop :=
  payload.value ≠ .null ∧ (PercentExceeded coupon payload ∨
    (WindowComparable coupon payload ∧ (WindowEmpty coupon payload ∨
      (payload.Storable ∧ payload.OrderKept localTime))))

section
variable {coupon : Coupon} {payload : CouponUpdate}

theorem mergedValue_eq_none : mergedValue coupon payload = none ↔ payload.value = .null :=
  Patch.get_some_eq_none

/-- What `_validate_update` ends with, case by case. -/
theorem validateUpdate_cases (hvalue : payload.value ≠ .null) :
    (PercentExceeded coupon payload ∧ validateUpdate coupon payload =
      .error (.exn (.validation "percent value cannot exceed 100" "invalid_coupon"))) ∨
    (¬ PercentExceeded coupon payload ∧ ¬ WindowComparable coupon payload ∧
      validateUpdate coupon payload = .error .typeError) ∨
    (¬ PercentExceeded coupon payload ∧ WindowComparable coupon payload ∧
      WindowEmpty coupon payload ∧ validateUpdate coupon payload =
        .error (.exn (.validation "ends_at must be after starts_at" "invalid_coupon"))) ∨
    (¬ PercentExceeded coupon payload ∧ WindowComparable coupon payload ∧
      ¬ WindowEmpty coupon payload ∧ validateUpdate coupon payload = .ok ()) := by
  have hsome : mergedValue coupon payload ≠ none := mt mergedValue_eq_none.mp hvalue
  obtain ⟨value, hmerged⟩ := Option.ne_none_iff_exists'.mp hsome
  have hpercent : PercentExceeded coupon payload ↔
      mergedType coupon payload = some .percent ∧ 100 < value := by
    simp [PercentExceeded, hmerged]
  unfold validateUpdate
  rw [hmerged]
  dsimp only
  by_cases hexceeded : mergedType coupon payload = some .percent ∧ 100 < value
  · left
    refine ⟨hpercent.mpr hexceeded, ?_⟩
    rw [if_pos hexceeded]
    rfl
  · right
    rw [if_neg hexceeded]
    have hnot := mt hpercent.mp hexceeded
    cases hstarts : mergedStarts coupon payload with
    | none =>
      right; right
      refine ⟨hnot, ?_, ?_, rfl⟩ <;> simp [WindowComparable, WindowEmpty, hstarts]
    | some starts =>
      cases hends : mergedEnds coupon payload with
      | none =>
        right; right
        refine ⟨hnot, ?_, ?_, rfl⟩ <;> simp [WindowComparable, WindowEmpty, hends]
      | some ends =>
        have hcomparable : WindowComparable coupon payload ↔ ends.le? starts ≠ none := by
          simp [WindowComparable, hstarts, hends]
        have hempty : WindowEmpty coupon payload ↔ ends.le? starts = some true := by
          simp [WindowEmpty, hstarts, hends]
        rw [hcomparable, hempty]
        cases hle : ends.le? starts with
        | none =>
          left
          exact ⟨hnot, not_not.mpr rfl, by simp only [hle]; rfl⟩
        | some b =>
          right
          cases b with
          | true =>
            left
            exact ⟨hnot, Option.some_ne_none _, rfl, by simp only [hle]; rfl⟩
          | false =>
            right
            exact ⟨hnot, Option.some_ne_none _, by simp, by simp only [hle]; rfl⟩

end

/-! The row that is written. -/

theorem bindMoney_eq_ok {x y : Decimal} :
    bindMoney x = .ok y ↔ |money.round x| < money.bound ∧ y = money.round x := by
  unfold bindMoney FixedPoint.store
  split_ifs with h <;> simp [h, eq_comm]

theorem bindInteger_eq_ok {n m : ℕ} : bindInteger n = .ok m ↔ n < 2 ^ 31 ∧ m = n := by
  unfold bindInteger
  split_ifs with h
  · rw [Except.ok.injEq, eq_comm]
    exact (and_iff_right h).symm
  · exact iff_of_false (fun heq => nomatch heq) fun hand => h hand.1

theorem required_eq_ok {α : Type} {value : Option α} {a : α} :
    required value = .ok a ↔ value = some a := by
  unfold required
  cases value <;> simp

theorem traverse_bindMoney {p q : Patch Decimal} : p.traverse bindMoney = .ok q ↔
    (p.All fun x => |money.round x| < money.bound) ∧ q = p.map money.round := by
  rw [Patch.traverse_eq_ok fun x y h => (bindMoney_eq_ok.mp h).2]
  simp only [bindMoney_eq_ok, and_true]

theorem traverse_bindInteger {p q : Patch ℕ} :
    p.traverse bindInteger = .ok q ↔ p.All (· < 2 ^ 31) ∧ q = p := by
  have hid : ∀ n m, bindInteger n = .ok m → m = id n := fun n m h => (bindInteger_eq_ok.mp h).2
  rw [Patch.traverse_eq_ok hid, Patch.map_id]
  simp only [bindInteger_eq_ok, id_eq, and_true]

theorem checkCoupon_eq_ok {coupon row : Coupon} : checkCoupon coupon = .ok row ↔
    (0 < row.value ∧ 0 ≤ row.minOrder ∧ (∀ cap ∈ row.maxDiscount, 0 < cap) ∧
      (∀ limit ∈ row.usageLimit, 1 ≤ limit) ∧ ∀ limit ∈ row.perUserLimit, 1 ≤ limit) ∧
      row = coupon := by
  unfold checkCoupon
  split_ifs with h
  · rw [Except.ok.injEq]
    constructor
    · rintro rfl
      exact ⟨h, rfl⟩
    · exact fun h => h.2.symm
  · refine iff_of_false (fun h => nomatch h) ?_
    rintro ⟨hrow, rfl⟩
    exact h hrow

/-- What `writeCoupon` needs, and the row it builds. -/
theorem writeCoupon_eq_ok {localTime : ℕ → Timestamp} {coupon row : Coupon}
    {payload : CouponUpdate} : writeCoupon localTime coupon payload = .ok row ↔
      payload.usageLimit.All (· < 2 ^ 31) ∧ payload.perUserLimit.All (· < 2 ^ 31) ∧
      (payload.value.All fun x => |money.round x| < money.bound) ∧
      (payload.minOrder.All fun x => |money.round x| < money.bound) ∧
      (payload.maxDiscount.All fun x => |money.round x| < money.bound) ∧
      ∃ newType, mergedType coupon payload = some newType ∧
      ∃ newValue, (payload.value.map money.round).get (some coupon.value) = some newValue ∧
      ∃ newMinOrder, (payload.minOrder.map money.round).get (some coupon.minOrder) =
        some newMinOrder ∧
      ∃ newActive, payload.active.get (some coupon.active) = some newActive ∧
      checkCoupon { coupon with
        discountType := newType
        value := newValue
        minOrder := newMinOrder
        maxDiscount := (payload.maxDiscount.map money.round).get coupon.maxDiscount
        usageLimit := payload.usageLimit.get coupon.usageLimit
        perUserLimit := payload.perUserLimit.get coupon.perUserLimit
        active := newActive
        startsAt := (mergedStarts coupon payload).map (Moment.toUtc localTime)
        endsAt := (mergedEnds coupon payload).map (Moment.toUtc localTime) } = .ok row := by
  simp only [writeCoupon, Except.bind_eq_ok_iff, traverse_bindInteger, traverse_bindMoney,
    required_eq_ok, and_assoc, exists_and_left, exists_eq_left]

/-- The database refuses a row with exceptions of its own. -/
theorem writeCoupon_error {localTime : ℕ → Timestamp} {coupon : Coupon} {payload : CouponUpdate} :
    ∀ e, writeCoupon localTime coupon payload = .error e → e.isDomain = false := by
  have hmoney (p : Patch Decimal) : ∀ e, p.traverse bindMoney = .error e → e.isDomain = false := by
    intro e hp
    obtain ⟨x, -, hx⟩ := Patch.traverse_eq_error hp
    unfold bindMoney at hx
    split at hx
    · cases hx
    · rw [← Except.error.inj hx]
      rfl
  have hinteger (p : Patch ℕ) : ∀ e, p.traverse bindInteger = .error e → e.isDomain = false := by
    intro e hp
    obtain ⟨n, -, hn⟩ := Patch.traverse_eq_error hp
    unfold bindInteger at hn
    split_ifs at hn
    rw [← Except.error.inj hn]
    rfl
  have hrequired {α : Type} (value : Option α) :
      ∀ e, required value = .error e → e.isDomain = false := by
    intro e hv
    unfold required at hv
    split at hv
    · cases hv
    · rw [← Except.error.inj hv]
      rfl
  refine Except.forall_error_bind (hinteger payload.usageLimit) fun _ => ?_
  refine Except.forall_error_bind (hinteger payload.perUserLimit) fun _ => ?_
  refine Except.forall_error_bind (hmoney payload.value) fun _ => ?_
  refine Except.forall_error_bind (hmoney payload.minOrder) fun _ => ?_
  refine Except.forall_error_bind (hmoney payload.maxDiscount) fun _ => ?_
  refine Except.forall_error_bind (hrequired _) fun _ => ?_
  refine Except.forall_error_bind (hrequired _) fun _ => ?_
  refine Except.forall_error_bind (hrequired _) fun _ => ?_
  refine Except.forall_error_bind (hrequired _) fun _ => ?_
  intro e h
  unfold checkCoupon at h
  split_ifs at h
  rw [← Except.error.inj h]
  rfl

section
variable {localTime : ℕ → Timestamp} {coupon row : Coupon} {payload : CouponUpdate}

theorem abs_round_lt {x : Decimal} (h : 0 ≤ x) :
    |money.round x| < money.bound ↔ money.round x < money.bound := by
  have hround : ((0 : ℤ) : ℚ) ≤ money.round x := FixedPoint.intCast_le_round (by exact_mod_cast h)
  rw [abs_of_nonneg (by exact_mod_cast hround)]

theorem storable_of_writeCoupon (hchecked : payload.Checked)
    (h : writeCoupon localTime coupon payload = .ok row) : payload.Storable := by
  obtain ⟨husage, huser, hvalue, hmin, hmax, newType, htype, newValue, hnewValue, newMin, hnewMin,
    newActive, hactive, hrow⟩ := writeCoupon_eq_ok.mp h
  obtain ⟨hchecks, rfl⟩ := checkCoupon_eq_ok.mp hrow
  refine ⟨?_, ?_, ?_, ?_, ?_, ?_, husage, huser⟩
  · intro hnull
    rw [mergedType, hnull] at htype
    cases htype
  · intro hnull
    rw [hnull] at hnewMin
    cases hnewMin
  · intro hnull
    rw [hnull] at hactive
    cases hactive
  · intro x hx
    have hlt := (abs_round_lt (hchecked.value x hx).le).mp (hvalue x hx)
    cases hpatch : payload.value with
    | unset => rw [hpatch] at hx; cases hx
    | null => rw [hpatch] at hx; cases hx
    | given y =>
      rw [hpatch] at hx hnewValue
      obtain rfl : y = x := Option.some.inj hx
      obtain rfl : money.round y = newValue := Option.some.inj hnewValue
      exact ⟨hchecks.1, hlt⟩
  · intro x hx
    exact (abs_round_lt (hchecked.minOrder x hx)).mp (hmin x hx)
  · intro x hx
    have hlt := (abs_round_lt (hchecked.maxDiscount x hx).le).mp (hmax x hx)
    cases hpatch : payload.maxDiscount with
    | unset => rw [hpatch] at hx; cases hx
    | null => rw [hpatch] at hx; cases hx
    | given y =>
      have hcap := hchecks.2.2.1
      rw [hpatch] at hx
      obtain rfl : y = x := Option.some.inj hx
      refine ⟨hcap (money.round y) ?_, hlt⟩
      dsimp only
      rw [hpatch]
      rfl

theorem writeCoupon_of_storable (hvalid : coupon.Valid) (hchecked : payload.Checked)
    (hvalue : payload.value ≠ .null) (h : payload.Storable) :
    ∃ row, writeCoupon localTime coupon payload = .ok row := by
  obtain ⟨newType, htype⟩ := Patch.exists_get h.discountType coupon.discountType
  obtain ⟨newValue, hnewValue⟩ := Patch.exists_get (Patch.map_ne_null hvalue) coupon.value
  obtain ⟨newMin, hnewMin⟩ := Patch.exists_get (Patch.map_ne_null h.minOrder) coupon.minOrder
  obtain ⟨newActive, hactive⟩ := Patch.exists_get h.active coupon.active
  have hpositive : 0 < newValue := by
    have hgiven : (payload.value.map money.round).All (0 < ·) :=
      Patch.all_map.mpr fun x hx => (h.valueFits x hx).1
    exact hgiven.get (by simpa using hvalid.value) newValue hnewValue
  have hmin : 0 ≤ newMin := by
    have hgiven : (payload.minOrder.map money.round).All (0 ≤ ·) := by
      refine Patch.all_map.mpr fun x hx => ?_
      have hround : ((0 : ℤ) : ℚ) ≤ money.round x :=
        FixedPoint.intCast_le_round (by exact_mod_cast hchecked.minOrder x hx)
      exact_mod_cast hround
    exact hgiven.get (by simpa using hvalid.minOrder) newMin hnewMin
  have hcap : ∀ cap ∈ (payload.maxDiscount.map money.round).get coupon.maxDiscount, 0 < cap := by
    have hgiven : (payload.maxDiscount.map money.round).All (0 < ·) :=
      Patch.all_map.mpr fun x hx => (h.maxDiscountFits x hx).1
    exact hgiven.get hvalid.maxDiscount
  have husage := hchecked.usageLimit.get hvalid.usageLimit
  have huser := hchecked.perUserLimit.get hvalid.perUserLimit
  refine ⟨_, writeCoupon_eq_ok.mpr ⟨h.usageLimitFits, h.perUserLimitFits, ?_, ?_, ?_, newType, htype,
    newValue, hnewValue, newMin, hnewMin, newActive, hactive,
    checkCoupon_eq_ok.mpr ⟨⟨hpositive, hmin, hcap, husage, huser⟩, rfl⟩⟩⟩
  · exact fun x hx => (abs_round_lt (hchecked.value x hx).le).mpr (h.valueFits x hx).2
  · exact fun x hx => (abs_round_lt (hchecked.minOrder x hx)).mpr (h.minOrderFits x hx)
  · exact fun x hx => (abs_round_lt (hchecked.maxDiscount x hx).le).mpr (h.maxDiscountFits x hx).2

/-- A written row is valid as soon as its window is. -/
theorem valid_of_writeCoupon (hpercent : ¬ PercentExceeded coupon payload)
    (h : writeCoupon localTime coupon payload = .ok row)
    (hwindow : ∀ starts ∈ row.startsAt, ∀ ends ∈ row.endsAt, starts < ends) : row.Valid := by
  obtain ⟨-, -, -, -, -, newType, htype, newValue, hnewValue, newMin, hnewMin, newActive, -, hrow⟩ :=
    writeCoupon_eq_ok.mp h
  obtain ⟨⟨hvalue, hmin, hcap, husage, huser⟩, rfl⟩ := checkCoupon_eq_ok.mp hrow
  refine ⟨hvalue, fun hpct => ?_, hmin, hcap, husage, huser, hwindow⟩
  dsimp only at hpct ⊢
  subst hpct
  have hle : ∀ value ∈ mergedValue coupon payload, value ≤ 100 := by
    intro value hmerged
    by_contra hlt
    exact hpercent ⟨htype, value, hmerged, not_le.mp hlt⟩
  cases hpatch : payload.value with
  | unset =>
    rw [hpatch] at hnewValue
    obtain rfl : coupon.value = newValue := Option.some.inj hnewValue
    exact hle coupon.value (by rw [mergedValue, hpatch]; rfl)
  | null =>
    rw [hpatch] at hnewValue
    cases hnewValue
  | given x =>
    rw [hpatch] at hnewValue
    obtain rfl : money.round x = newValue := Option.some.inj hnewValue
    have hx : x ≤ ((100 : ℤ) : ℚ) := by
      exact_mod_cast hle x (by rw [mergedValue, hpatch]; rfl)
    exact_mod_cast FixedPoint.round_le_intCast (c := money) hx

/-- The window of the written row is the merged one, in the zone of the server. -/
theorem window_of_writeCoupon (h : writeCoupon localTime coupon payload = .ok row) :
    row.startsAt = (mergedStarts coupon payload).map (Moment.toUtc localTime) ∧
      row.endsAt = (mergedEnds coupon payload).map (Moment.toUtc localTime) := by
  obtain ⟨-, -, -, -, -, newType, -, newValue, -, newMin, -, newActive, -, hrow⟩ :=
    writeCoupon_eq_ok.mp h
  obtain ⟨-, rfl⟩ := checkCoupon_eq_ok.mp hrow
  exact ⟨rfl, rfl⟩

/-- A bound without a zone is one of the payload. -/
theorem wall_of_get {p : Patch Moment} {old : Option Timestamp} {t : ℕ}
    (h : p.get (old.map .zoned) = some (.wall t)) : p = .given (.wall t) := by
  cases p with
  | unset => cases old <;> cases h
  | null => cases h
  | given m => exact congrArg Patch.given (Option.some.inj h)

/-- A window in order stays in order when its times on the wall do. -/
theorem window_iff (hcomparable : WindowComparable coupon payload)
    (hempty : ¬ WindowEmpty coupon payload) :
    (∀ starts ∈ (mergedStarts coupon payload).map (Moment.toUtc localTime),
      ∀ ends ∈ (mergedEnds coupon payload).map (Moment.toUtc localTime), starts < ends) ↔
      payload.OrderKept localTime := by
  constructor
  · intro hwindow starts ends hstarts hends _
    apply hwindow (localTime starts) _ (localTime ends) _
    · rw [mergedStarts, hstarts]
      rfl
    · rw [mergedEnds, hends]
      rfl
  · intro hkept a ha b hb
    obtain ⟨starts, hstarts, rfl⟩ := Option.map_eq_some_iff.mp ha
    obtain ⟨ends, hends, rfl⟩ := Option.map_eq_some_iff.mp hb
    have hle := hcomparable starts hstarts ends hends
    have hnot : ends.le? starts ≠ some true := fun h => hempty ⟨starts, hstarts, ends, hends, h⟩
    cases starts with
    | zoned s =>
      cases ends with
      | zoned e =>
        have hlt : s < e := by simpa [Moment.le?] using hnot
        exact hlt
      | wall e => exact absurd rfl hle
    | wall s =>
      cases ends with
      | zoned e => exact absurd rfl hle
      | wall e =>
        have hlt : s < e := by simpa [Moment.le?] using hnot
        exact hkept s e (wall_of_get hstarts) (wall_of_get hends) hlt

/-- What the request ends with, after the checks of `update_coupon`. -/
theorem keepsCouponValid_of_validated {couponId : Uuid} {admin : User} {coupons : List Coupon}
    (hadmin : admin.isAdmin = true) (hstored : Table.find Coupon.id couponId coupons = some coupon)
    (hok : validateUpdate coupon payload = .ok ()) :
    KeepsCouponValid localTime couponId payload admin coupons ↔
      ∃ row, writeCoupon localTime coupon payload = .ok row ∧ row.Valid := by
  have hupdate : updateCoupon localTime couponId payload admin coupons =
      match writeCoupon localTime coupon payload with
      | .error e => .error (.exn e)
      | .ok row => .ok (row, Table.modify Coupon.id couponId (fun _ => row) coupons) := by
    simp only [updateCoupon, hadmin, hstored, hok]
    cases writeCoupon localTime coupon payload <;> rfl
  unfold KeepsCouponValid serveCouponUpdate
  rw [hupdate]
  cases hwrite : writeCoupon localTime coupon payload with
  | error e =>
    refine iff_of_false (fun hkeeps => ?_) (by rintro ⟨row, hrow, -⟩; cases hrow)
    have hdomain : e.isDomain = true := hkeeps.1
    rw [writeCoupon_error e hwrite] at hdomain
    cases hdomain
  | ok row =>
    have hid : row.id = coupon.id := by
      obtain ⟨-, -, -, -, -, newType, -, newValue, -, newMin, -, newActive, -, hrow⟩ :=
        writeCoupon_eq_ok.mp hwrite
      obtain ⟨-, rfl⟩ := checkCoupon_eq_ok.mp hrow
      rfl
    have hfind : Table.find Coupon.id couponId
        (Table.modify Coupon.id couponId (fun _ => row) coupons) = some row := by
      rw [Table.find_modify_const (hid.trans (Table.key_of_find hstored)), hstored]
      rfl
    simp [hfind]

end

/-- Ten percent off until the end of the year. -/
def yearEnd : Coupon where
  id := 5
  code := "SAVE-10"
  discountType := .percent
  value := 10
  minOrder := 0
  maxDiscount := none
  usageLimit := none
  usedCount := 0
  perUserLimit := none
  active := true
  startsAt := none
  endsAt := some 1798700000

theorem yearEnd_valid : yearEnd.Valid := by
  refine ⟨by norm_num [yearEnd], fun _ => by norm_num [yearEnd], le_refl 0, ?_, ?_, ?_, ?_⟩
  · exact fun cap h => nomatch h
  · exact fun limit h => nomatch h
  · exact fun limit h => nomatch h
  · exact fun starts h => nomatch h

def couponAdmin : User := ⟨1, .admin, none, none, none, none⟩

end Qiki.Orders
