import GreenPms.Order.Timeline
import GreenPms.Pricing.Calculation

/-! # Checks of stored cash lines

The lines of a pricing revision are read back line by line: the segments of a stay total have to
follow each other and to round to its amount, and the nights have to be those of the timeline.
-/

namespace GreenPms

def inPostgresRange (value low : Int) : Bool := low ≤ value && value ≤ postgresIntegerMaximum

@[simp] theorem inPostgresRange_eq_true {value low : Int} :
    inPostgresRange value low = true ↔ low ≤ value ∧ value ≤ 2147483647 := by
  rw [inPostgresRange, Bool.and_eq_true, decide_eq_true_eq, decide_eq_true_eq, postgresIntegerMaximum]

def validText (text : String) : Bool := text.length ≤ 1000 && text.toList.any fun c => !c.isWhitespace

def expectedDates (arrivalDate departureDate : Nat) : Option (List Nat) :=
  if arrivalDate < departureDate ∧ departureDate - arrivalDate ≤ 366 then
    some (serviceDates arrivalDate departureDate)
  else none

def unitOn (timeline : List StayTimelineItem) (serviceDate : Nat) : Option Nat :=
  (timeline.find? fun item => item.serviceDate = serviceDate).map StayTimelineItem.inventoryUnitId

section

variable (timelineByDate : Option (List StayTimelineItem))

def nightCashLine (serviceDate : Nat) (description : String) (amount : Money) : Bool :=
  timelineByDate.all (fun timeline => (unitOn timeline serviceDate).isSome) && validText description &&
    inPostgresRange amount.minorUnits 0

def validSegment (band : DurationBandAnchorNights) (nextSegmentArrival : Nat) (s : CalculationSegment) : Bool :=
  s.arrivalDate = nextSegmentArrival && inPostgresRange s.nights 1 && s.nights ≤ 366 &&
  inPostgresRange s.anchorAmountMinor 1 && 1 ≤ s.numeratorMinor && s.numeratorMinor ≤ maxSafeInteger &&
  s.denominator = band &&
  (expectedDates s.arrivalDate s.departureDate).any (fun dates => dates.length = s.nights &&
    timelineByDate.all fun timeline => dates.all fun date => unitOn timeline date = some s.inventoryUnitId) &&
  s.numeratorMinor = s.nights * s.anchorAmountMinor

def followSegments (band : DurationBandAnchorNights) : Nat → List CalculationSegment → Option (Nat × Nat)
  | next, [] => some (next, 0)
  | next, s :: rest =>
      if validSegment timelineByDate band next s then
        (followSegments band s.departureDate rest).map fun (stop, total) =>
          (stop, s.nights * s.anchorAmountMinor + total)
      else none

def stayTotalCashLine (arrivalDate departureDate unitId : Nat) (description : String)
    (band : DurationBandAnchorNights) (segments : List CalculationSegment) (amount : Money) : Bool :=
  validText description && inPostgresRange amount.minorUnits 0 && segments ≠ [] &&
  (expectedDates arrivalDate departureDate).any (fun dates => timelineByDate.all fun timeline =>
    dates.length = timeline.length && dates.all (fun date => (unitOn timeline date).isSome) &&
      unitOn timeline arrivalDate = some unitId) &&
  (followSegments timelineByDate band arrivalDate segments).any fun (stop, total) =>
    stop = departureDate && amount.minorUnits = roundedMinor total band.nights

def validCashLine : CashLine → Bool
  | .night serviceDate _ description amount => nightCashLine timelineByDate serviceDate description amount
  | .stayTotal arrivalDate departureDate unitId description band segments amount =>
      stayTotalCashLine timelineByDate arrivalDate departureDate unitId description band segments amount

end

def CashLine.isStayTotal : CashLine → Bool
  | .stayTotal _ _ _ _ _ _ _ => true
  | .night _ _ _ _ => false

def CashLine.serviceDate? : CashLine → Option Nat
  | .night serviceDate _ _ _ => some serviceDate
  | .stayTotal _ _ _ _ _ _ _ => none

def CashLine.unit : CashLine → Nat
  | .night _ unitId _ _ | .stayTotal _ _ unitId _ _ _ _ => unitId

def runningTotal (currency : CurrencyCode) : Int → List CashLine → Option Int
  | total, [] => some total
  | total, line :: rest =>
      if line.amount.currency = currency ∧ inPostgresRange line.amount.minorUnits 0 ∧
          inPostgresRange (total + line.amount.minorUnits) 0 then
        runningTotal currency (total + line.amount.minorUnits) rest
      else none

def pricingCashLineTotalMinor (lines : List CashLine) (currency : CurrencyCode) : Option Int :=
  if lines.all (validCashLine none) then
    if lines.any CashLine.isStayTotal then
      if lines.length = 1 then runningTotal currency 0 lines else none
    else if (lines.map CashLine.serviceDate?).Nodup then runningTotal currency 0 lines
    else none
  else none

def matchesNight (timeline : List StayTimelineItem) (line : CashLine) (item : StayTimelineItem) : Bool :=
  validCashLine (some timeline) line && line.serviceDate? = some item.serviceDate &&
    line.unit = item.inventoryUnitId

def ordinaryStayCashLineTotalMinor (lines : List CashLine) (currency : CurrencyCode)
    (timeline : List StayTimelineItem) : Option Int := do
  let total ← pricingCashLineTotalMinor lines currency
  guard (timeline ≠ [])
  guard (timeline.map StayTimelineItem.serviceDate).Nodup
  if lines.any CashLine.isStayTotal then
    guard (lines.length = 1 ∧ lines.all (validCashLine (some timeline)))
    return total
  else
    guard (lines.length = timeline.length)
    guard ((lines.zip timeline).all fun (line, item) => matchesNight timeline line item)
    return total

end GreenPms
