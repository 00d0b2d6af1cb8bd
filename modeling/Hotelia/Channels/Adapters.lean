import Hotelia.Shared.Tax

/-!
# The channel adapters

`receiveBooking` of the adapters of `packages/channels/src`, which take the payload of a
webhook as it comes.

## Main definitions

- `Value` — what a payload is made of
- `receiveBooking` — the booking that an adapter makes of a payload
- `Lawful` — a rate that is net and itemized tax

## Main results

- `lawful_iff`: which rates are.
-/

namespace Hotelia.Channels
open Foundation.Numeric

/-- A value of a payload. A number is finite. -/
inductive Value where
  | undefined
  | null
  | bool (b : Bool)
  | number (q : ℚ)
  | string (s : String)
  | array (items : List Value)
  | object (fields : List (String × Value))

namespace Value

/-- `v.field`, for a field that only objects have; reading it throws if there is nothing to
read it from. -/
def get? : Value → String → Option Value
  | undefined, _ => none
  | null, _ => none
  | object fields, field => some ((fields.lookup field).getD undefined)
  | _, _ => some undefined

/-- `a ?? b`. -/
def orElse : Value → Value → Value
  | undefined, b => b
  | null, b => b
  | a, _ => a

/-- The number that a value is, if `typeof` says so. -/
def number? : Value → Option ℚ
  | number q => some q
  | _ => none

/-- The items of an array. -/
def items? : Value → Option (List Value)
  | array items => some items
  | _ => none

/-- The number in a field. -/
def amount? (v : Value) (field : String) : Option ℚ := (v.get? field).bind number?

end Value

/-- A `TaxLine` of a rate that an adapter returns. -/
def lineValue (t : TaxLine) : Value :=
  .object [("ruleId", .string t.ruleId), ("name", .string t.name), ("rate", .number t.rate),
    ("amount", .number t.amount)]

/-- The `ChannelRate` that an adapter returns. -/
def rateValue (rate : NormalizedRate) : Value :=
  .object [("netAmount", .number rate.netAmount), ("grossAmount", .number rate.grossAmount),
    ("taxAmount", .number rate.taxAmount),
    ("taxItems", .array (rate.taxItems.map lineValue)),
    ("wasInclusive", .bool rate.wasInclusive), ("currency", .string rate.currency)]

/-- What `receiveBooking` resolves to. -/
structure Booking where
  confirmationNo : Value
  guestName : Value
  checkIn : Value
  checkOut : Value
  roomType : Value
  rate : Value
  channelRef : Value

/-- Why `receiveBooking` rejects. -/
inductive Rejection where
  /-- A field of `undefined` or `null` is read. -/
  | typeError
  | error (message : String)
  deriving DecidableEq

/-- An adapter of a travel agency: where the payload has the amount, how it is quoted, and the
words that differ. -/
structure AgencyAdapter where
  name : String
  amountField : String
  quotingGross : Bool
  taxRules : List TaxRule
  missing : String
  referencePrefix : String

section Adapters

variable (rt : Runtime)

def bookingComAdapter : AgencyAdapter where
  name := "booking.com"
  amountField := "grossAmount"
  quotingGross := true
  taxRules := [⟨"vat", "VAT", rt.num (1 / 10)⟩]
  missing := "Booking.com payload missing grossAmount"
  referencePrefix := "BKG-"

def expediaAdapter : AgencyAdapter where
  name := "expedia"
  amountField := "netAmount"
  quotingGross := false
  taxRules := [⟨"vat", "VAT", rt.num (1 / 10)⟩]
  missing := "Expedia payload missing netAmount"
  referencePrefix := "EXP-"

def airbnbAdapter : AgencyAdapter where
  name := "airbnb"
  amountField := "netAmount"
  quotingGross := false
  taxRules := [⟨"city_tax", "Guest city tax", rt.num (1 / 25)⟩]
  missing := "Airbnb payload missing netAmount"
  referencePrefix := "ABNB-"

/-- `payload.field`. -/
def read (payload : Value) (field : String) : Except Rejection Value :=
  match payload.get? field with
  | none => throw .typeError
  | some v => pure v

/-- `receiveBooking(rawPayload)` of an agency; `random` is what `Math.random()` comes to in the
reference. -/
def AgencyAdapter.receiveBooking (a : AgencyAdapter) (payload : Value) (random : String) :
    Except Rejection Booking := do
  match (← read payload a.amountField).number? with
  | none => throw (.error a.missing)
  | some amount =>
    let rate := TaxEngine.normalizeRate rt ⟨amount, "USD", a.quotingGross, a.taxRules⟩
    pure
      { confirmationNo :=
          (← read payload "confirmationNo").orElse (.string (a.referencePrefix ++ random))
        guestName := (← read payload "guestName").orElse (.string "Unknown")
        checkIn := (← read payload "checkIn").orElse (.string "")
        checkOut := (← read payload "checkOut").orElse (.string "")
        roomType := (← read payload "roomType").orElse (.string "STANDARD")
        rate := rateValue rate
        channelRef := (← read payload "channelRef").orElse (.string "") }

/-- `receiveBooking(rawPayload)` of `DirectBookingAdapter`, which takes the rate as it comes. -/
def directReceiveBooking (payload : Value) (random : String) : Except Rejection Booking := do
  pure
    { confirmationNo := .string ("HTL-" ++ random)
      guestName := ← read payload "guestName"
      checkIn := ← read payload "checkIn"
      checkOut := ← read payload "checkOut"
      roomType := ← read payload "roomType"
      rate := ← read payload "rate"
      channelRef := .string "direct" }

inductive Channel where
  | bookingCom | expedia | airbnb | direct
  deriving DecidableEq

def receiveBooking (channel : Channel) (payload : Value) (random : String) :
    Except Rejection Booking :=
  match channel with
  | .bookingCom => (bookingComAdapter rt).receiveBooking rt payload random
  | .expedia => (expediaAdapter rt).receiveBooking rt payload random
  | .airbnb => (airbnbAdapter rt).receiveBooking rt payload random
  | .direct => directReceiveBooking payload random

end Adapters

/-! ## Net and itemized tax -/

/-- The amounts of the lines of a rate. -/
def taxAmounts (rate : Value) : Option (List ℚ) :=
  ((rate.get? "taxItems").bind Value.items?).bind fun items => items.mapM (·.amount? "amount")

/-- A rate is net and itemized tax. -/
def Lawful (rate : Value) : Prop :=
  ∃ net gross tax amounts, rate.amount? "netAmount" = some net ∧
    rate.amount? "grossAmount" = some gross ∧ rate.amount? "taxAmount" = some tax ∧
    taxAmounts rate = some amounts ∧ Itemized net gross tax amounts

theorem amounts_lineValue (items : List TaxLine) :
    (items.map lineValue).mapM (·.amount? "amount") = some (items.map (·.amount)) := by
  induction items with
  | nil => rfl
  | cons t items ih =>
    rw [List.map_cons, List.mapM_cons, ih]
    rfl

/-- The fields of a rate that an adapter returns are those of the rate. -/
theorem lawful_rateValue {rate : NormalizedRate}
    (h : Itemized rate.netAmount rate.grossAmount rate.taxAmount (rate.taxItems.map (·.amount))) :
    Lawful (rateValue rate) :=
  ⟨_, _, _, _, rfl, rfl, rfl, amounts_lineValue rate.taxItems, h⟩

/-- Nothing can be read from a payload, or every field can. -/
theorem read_cases (payload : Value) :
    (∀ field, read payload field = .error .typeError) ∨
      ∀ field, ∃ v, payload.get? field = some v ∧ read payload field = .ok v := by
  cases payload with
  | undefined => exact .inl fun _ => rfl
  | null => exact .inl fun _ => rfl
  | object fields => exact .inr fun _ => ⟨_, rfl, rfl⟩
  | bool b => exact .inr fun _ => ⟨_, rfl, rfl⟩
  | number q => exact .inr fun _ => ⟨_, rfl, rfl⟩
  | string s => exact .inr fun _ => ⟨_, rfl, rfl⟩
  | array items => exact .inr fun _ => ⟨_, rfl, rfl⟩

section Bookings

variable {rt : Runtime} {payload : Value} {random : String} {booking : Booking}

/-- The rate of a booking of an agency comes from the tax engine. -/
theorem rate_agency {a : AgencyAdapter} (h : a.receiveBooking rt payload random = .ok booking) :
    ∃ amount, booking.rate =
      rateValue (TaxEngine.normalizeRate rt ⟨amount, "USD", a.quotingGross, a.taxRules⟩) := by
  rw [AgencyAdapter.receiveBooking] at h
  rcases read_cases payload with hnone | hread
  · rw [hnone] at h
    exact nomatch h
  · obtain ⟨v, -, hv⟩ := hread a.amountField
    obtain ⟨confirmationNo, -, h₁⟩ := hread "confirmationNo"
    obtain ⟨guestName, -, h₂⟩ := hread "guestName"
    obtain ⟨checkIn, -, h₃⟩ := hread "checkIn"
    obtain ⟨checkOut, -, h₄⟩ := hread "checkOut"
    obtain ⟨roomType, -, h₅⟩ := hread "roomType"
    obtain ⟨channelRef, -, h₆⟩ := hread "channelRef"
    rw [hv, h₁, h₂, h₃, h₄, h₅, h₆] at h
    cases hnumber : v.number? with
    | none =>
      simp only [bind, Except.bind, hnumber] at h
      exact nomatch h
    | some amount =>
      simp only [bind, Except.bind, hnumber] at h
      cases h
      exact ⟨amount, rfl⟩

/-- The rate of a booking of an agency with one rule is net and itemized tax. -/
theorem lawful_agency (hexact : rt.Exact) {a : AgencyAdapter} {rule : TaxRule}
    (hrule : a.taxRules = [rule]) (h : a.receiveBooking rt payload random = .ok booking) :
    Lawful booking.rate := by
  obtain ⟨amount, hrate⟩ := rate_agency h
  rw [hrate]
  exact lawful_rateValue (TaxEngine.itemized_normalizeRate hexact hrule)

/-- The rate of a direct booking is that of the payload. -/
theorem rate_direct (h : directReceiveBooking payload random = .ok booking) :
    payload.get? "rate" = some booking.rate := by
  rw [directReceiveBooking] at h
  rcases read_cases payload with hnone | hread
  · rw [hnone] at h
    exact nomatch h
  · obtain ⟨guestName, -, h₂⟩ := hread "guestName"
    obtain ⟨checkIn, -, h₃⟩ := hread "checkIn"
    obtain ⟨checkOut, -, h₄⟩ := hread "checkOut"
    obtain ⟨roomType, -, h₅⟩ := hread "roomType"
    obtain ⟨rate, hget, h₆⟩ := hread "rate"
    rw [h₂, h₃, h₄, h₅, h₆] at h
    cases h
    exact hget

/-- The rate of a booking is net and itemized tax exactly if the booking came from an agency, or
the payload of a direct booking had such a rate. -/
theorem lawful_iff (hexact : rt.Exact) {channel : Channel}
    (h : receiveBooking rt channel payload random = .ok booking) :
    Lawful booking.rate ↔
      (channel = .direct → ∃ rate, payload.get? "rate" = some rate ∧ Lawful rate) := by
  cases channel with
  | bookingCom => exact iff_of_true (lawful_agency hexact rfl h) fun hdirect => nomatch hdirect
  | expedia => exact iff_of_true (lawful_agency hexact rfl h) fun hdirect => nomatch hdirect
  | airbnb => exact iff_of_true (lawful_agency hexact rfl h) fun hdirect => nomatch hdirect
  | direct =>
    have hrate := rate_direct h
    constructor
    · exact fun hlawful _ => ⟨booking.rate, hrate, hlawful⟩
    · intro hpayload
      obtain ⟨rate, hget, hlawful⟩ := hpayload rfl
      rwa [Option.some.inj (hrate.symm.trans hget)]

end Bookings

/-- A gross price of a travel agency. -/
def quotedGross : Value := .object [("grossAmount", .number 110)]

theorem lawful_iff_quotedGross :
    ∃ booking, receiveBooking (.exact 0 id) .bookingCom quotedGross "0" = .ok booking ∧
      (Lawful booking.rate ↔ (Channel.bookingCom = .direct →
        ∃ rate, quotedGross.get? "rate" = some rate ∧ Lawful rate)) := by
  have hexact := Runtime.exact_exact 0 id
  obtain ⟨booking, hbooking⟩ :
      ∃ booking, receiveBooking (.exact 0 id) .bookingCom quotedGross "0" = .ok booking :=
    ⟨_, rfl⟩
  exact ⟨booking, hbooking, lawful_iff hexact hbooking⟩

/-- A direct booking whose gross price leaves out the tax. -/
def untaxedGross : Value :=
  .object [("guestName", .string "Ada"), ("checkIn", .string "2026-03-01"),
    ("checkOut", .string "2026-03-02"), ("roomType", .string "STANDARD"),
    ("rate", .object [("netAmount", .number 100), ("grossAmount", .number 100),
      ("taxAmount", .number 10), ("taxItems", .array [.object [("amount", .number 10)]]),
      ("currency", .string "USD")])]

theorem not_lawful :
    ¬ ∀ (rt : Runtime) (channel : Channel) (payload : Value) (random : String) (booking : Booking),
      rt.Exact → receiveBooking rt channel payload random = .ok booking → Lawful booking.rate := by
  intro h
  obtain ⟨net, gross, tax, amounts, hnet, hgross, htax, -, hitemized⟩ :=
    h (.exact 0 id) .direct untaxedGross "0" _ (Runtime.exact_exact 0 id) rfl
  cases hnet
  cases hgross
  cases htax
  have hsum := hitemized.sum
  norm_num at hsum

end Hotelia.Channels
