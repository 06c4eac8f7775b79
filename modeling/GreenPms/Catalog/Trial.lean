import GreenPms.Catalog.Actions
import GreenPms.Pricing.BandTotal

/-! # The trial price of a room type

The catalog quotes a stay from four anchors and the number of beds sold together. An order prices the
same nights from the table that the catalog publishes, and both come to the same whole yuan.
-/

namespace GreenPms

open Checked Rounding CatalogBasis

def RoomRateAnchors.bands (anchors : RoomRateAnchors) : DurationBandAnchors where
  minor
    | .one => anchors.one
    | .seven => anchors.seven
    | .fourteen => anchors.fourteen
    | .thirty => anchors.thirty

structure ExactDurationBandAmount where
  nights : Nat
  anchorNights : DurationBandAnchorNights
  anchorAmountMinor : Nat
  numeratorMinor : Nat
  denominator : Nat
  deriving DecidableEq, Repr

def exactDurationBandAmount (nights : Nat) (anchors : DurationBandAnchors) :
    Except DomainError ExactDurationBandAmount := do
  let anchorNights := durationBandAnchorNights nights
  let anchorAmountMinor := anchors.minor anchorNights
  require (0 < anchorAmountMinor ∧ anchorAmountMinor ≤ maxSafeInteger)
    (invalidInput ("The " ++ toString anchorNights.nights ++ "-night anchor must be a positive integer in minor units"))
  let rawNumerator := nights * anchorAmountMinor
  require (rawNumerator ≤ maxSafeInteger) unsupportedAmount
  let divisor := Nat.gcd rawNumerator anchorNights.nights
  return {
    nights := nights
    anchorNights := anchorNights
    anchorAmountMinor := anchorAmountMinor
    numeratorMinor := rawNumerator / divisor
    denominator := anchorNights.nights / divisor }

def roundExactAmountToWholeYuanMinor (amount : ExactDurationBandAmount) : Except DomainError Nat := do
  let minorUnits := roundedMinor amount.numeratorMinor amount.denominator
  require (minorUnits ≤ maxSafeInteger) unsupportedAmount
  return minorUnits

structure DurationBandTotal where
  exact : ExactDurationBandAmount
  roundedMinor : Nat
  deriving DecidableEq, Repr

def calculateDurationBandTotalMinor (nights : Nat) (anchors : DurationBandAnchors) :
    Except DomainError DurationBandTotal := do
  let exact ← exactDurationBandAmount nights anchors
  let roundedMinor ← roundExactAmountToWholeYuanMinor exact
  return ⟨exact, roundedMinor⟩

structure TrialRate where
  nights : Nat
  anchorNights : DurationBandAnchorNights
  amountMinor : Nat
  deriving DecidableEq, Repr

def trialRoomRate (anchors : Option RoomRateAnchors) (arrivalDate departureDate : Nat) (multiplier : Nat) :
    Except Thrown TrialRate := do
  let validated ← validateRoomRateAnchors anchors
  require (1 ≤ multiplier ∧ multiplier ≤ 100) (invalid "销售数量无效")
  let dates ← (enumerateServiceDates arrivalDate departureDate).mapError .domain
  let calculated ← (calculateDurationBandTotalMinor dates.length (validated.times multiplier).bands).mapError .domain
  return ⟨dates.length, durationBandAnchorNights dates.length, calculated.roundedMinor⟩

example : trialRoomRate (some ⟨6800, 38000, 55000, 90000⟩) 0 13 2 = .ok ⟨13, .seven, 141100⟩ := by decide

/-! ## Bounds -/

theorem validateRoomRateAnchors_eq_ok {anchors validated : RoomRateAnchors} :
    validateRoomRateAnchors (some anchors) = .ok validated ↔
      (∀ band, 0 < anchors.bands.minor band ∧ anchors.bands.minor band ≤ 20000000) ∧ anchors = validated := by
  simp only [validateRoomRateAnchors, bind_eq_ok, expect_eq_ok, require_eq_ok, pure_eq_ok, Option.some.injEq]
  constructor
  · rintro ⟨_, rfl, _, hBounds, rfl⟩
    refine ⟨fun band => hBounds _ ?_, rfl⟩
    cases band <;> simp [RoomRateAnchors.bands]
  · rintro ⟨hBounds, rfl⟩
    refine ⟨anchors, rfl, (), ?_, rfl⟩
    simpa [RoomRateAnchors.bands] using
      And.intro (hBounds .one) (And.intro (hBounds .seven) (And.intro (hBounds .fourteen) (hBounds .thirty)))

theorem times_bands (anchors : RoomRateAnchors) (multiplier : Nat) (band : DurationBandAnchorNights) :
    (anchors.times multiplier).bands.minor band = anchors.bands.minor band * multiplier := by
  cases band <;> rfl

theorem roundedMinor_le (numerator denominator : Nat) :
    roundedMinor numerator denominator ≤ (numerator * 2 + denominator * 100) * 100 :=
  Nat.mul_le_mul_right _ (Nat.div_le_self _ _)

theorem roundedMinor_reduced {numerator denominator : Nat} (h : 0 < denominator) :
    roundedMinor (numerator / Nat.gcd numerator denominator) (denominator / Nat.gcd numerator denominator) =
      roundedMinor numerator denominator := by
  have hGcd : 0 < Nat.gcd numerator denominator := Nat.gcd_pos_of_pos_right _ h
  have hNumerator := Nat.mul_div_cancel' (Nat.gcd_dvd_left numerator denominator)
  have hDenominator := Nat.mul_div_cancel' (Nat.gcd_dvd_right numerator denominator)
  have hScaled : Nat.gcd numerator denominator * (denominator / Nat.gcd numerator denominator * 100) =
      denominator * 100 := by
    rw [← Nat.mul_assoc, hDenominator]
  have hRound := halfUp_mul_left (n := numerator / Nat.gcd numerator denominator)
    (d := denominator / Nat.gcd numerator denominator * 100) hGcd
  rw [hNumerator, hScaled] at hRound
  exact congrArg (· * 100) hRound.symm

section

variable {nights : Nat} {anchors : DurationBandAnchors}

theorem exactDurationBandAmount_ok (hPos : 0 < anchors.minor (durationBandAnchorNights nights))
    (hAnchor : anchors.minor (durationBandAnchorNights nights) ≤ maxSafeInteger)
    (hRaw : nights * anchors.minor (durationBandAnchorNights nights) ≤ maxSafeInteger) :
    ∃ exact, exactDurationBandAmount nights anchors = .ok exact ∧ roundedMinor exact.numeratorMinor exact.denominator =
      roundedMinor (nights * anchors.minor (durationBandAnchorNights nights)) (durationBandAnchorNights nights).nights := by
  simp only [exactDurationBandAmount, bind_eq_ok, require_eq_ok, pure_eq_ok]
  exact ⟨_, ⟨(), ⟨hPos, hAnchor⟩, (), hRaw, rfl⟩, roundedMinor_reduced (band_pos _)⟩

/-- No guard of the trial is met: an anchor of a type is at most 20,000,000, and a product has at most a
hundred beds. -/
theorem calculateDurationBandTotalMinor_ok (hNights : nights ≤ 366)
    (hAnchors : ∀ band, 0 < anchors.minor band ∧ anchors.minor band ≤ maxAnchorMinor) :
    ∃ exact, calculateDurationBandTotalMinor nights anchors = .ok ⟨exact,
      roundedMinor (nights * anchors.minor (durationBandAnchorNights nights)) (durationBandAnchorNights nights).nights⟩ ∧
      nights * anchors.minor (durationBandAnchorNights nights) ≤ maxSafeInteger ∧
      roundedMinor (nights * anchors.minor (durationBandAnchorNights nights)) (durationBandAnchorNights nights).nights ≤
        maxSafeInteger := by
  obtain ⟨hPos, hMax⟩ := hAnchors (durationBandAnchorNights nights)
  have hRaw : nights * anchors.minor (durationBandAnchorNights nights) ≤ 366 * maxAnchorMinor :=
    Nat.mul_le_mul hNights hMax
  have hBand : (durationBandAnchorNights nights).nights ≤ 30 := by
    cases durationBandAnchorNights nights <;> decide
  have hSafe : 366 * maxAnchorMinor ≤ maxSafeInteger := by decide
  have hTotalSafe : roundedMinor (nights * anchors.minor (durationBandAnchorNights nights))
      (durationBandAnchorNights nights).nights ≤ maxSafeInteger := by
    calc
      _ ≤ (nights * anchors.minor (durationBandAnchorNights nights) * 2 +
          (durationBandAnchorNights nights).nights * 100) * 100 := roundedMinor_le _ _
      _ ≤ (366 * maxAnchorMinor * 2 + 30 * 100) * 100 :=
        Nat.mul_le_mul_right _ (Nat.add_le_add (Nat.mul_le_mul_right _ hRaw) (Nat.mul_le_mul_right _ hBand))
      _ ≤ maxSafeInteger := by decide
  obtain ⟨exact, hExact, hRounded⟩ := exactDurationBandAmount_ok hPos (hMax.trans (by decide)) (hRaw.trans hSafe)
  refine ⟨exact, ?_, hRaw.trans hSafe, hTotalSafe⟩
  rw [calculateDurationBandTotalMinor, bind_eq_ok]
  refine ⟨exact, hExact, ?_⟩
  simp only [roundExactAmountToWholeYuanMinor, hRounded, require, if_pos hTotalSafe]
  rfl

end

/-! ## The table that the catalog builds -/

/-- The product of the type decides the price of its code: no later entry has the code. -/
structure DecidesPrice (types : List ManagedRoomType) (type : ManagedRoomType) (product : RoomTypeProduct) : Prop where
  types : ∃ before after, types = before ++ type :: after ∧ ∀ t ∈ after, ∀ p ∈ t.products, p.code ≠ product.code
  products : ∃ first last, type.products = first ++ product :: last ∧ ∀ p ∈ last, p.code ≠ product.code

/-- A policy by duration band over a table of the catalog, whose codes are texts. -/
structure CatalogPriced (policy : PricingPolicy) (codeText : Nat → Label) (table : PriceTable) : Prop where
  kind : policy.calculationKind = .durationBandTotal
  stayType : policy.stayType = none
  rounds : policy.roundsFinalTotal = true
  table : ∀ code, policy.productAnchorRatesMinor code = (table.lookup (codeText code)).map RoomRateAnchors.bands

section

variable {date : Nat} {baseline : PriceTable} {rates : List RoomRateChange} {types : List ManagedRoomType}
  {type : ManagedRoomType} {product : RoomTypeProduct} {anchors : RoomRateAnchors}

theorem productAnchors_decided (hType : typeAnchors date baseline rates type = some anchors) {first last : List RoomTypeProduct}
    (hProducts : type.products = first ++ product :: last) (hLast : ∀ p ∈ last, p.code ≠ product.code) :
    productAnchors date baseline rates product.code type = some (anchors.times product.multiplier) := by
  have hNone : last.reverse.find? (·.code = product.code) = none :=
    List.find?_eq_none.mpr fun p hp => by simpa using hLast p (List.mem_reverse.mp hp)
  rw [productAnchors, hType, hProducts, List.reverse_append, List.reverse_cons, List.append_assoc, List.find?_append, hNone]
  simp

theorem productAnchors_other {code : Label} (h : ∀ p ∈ type.products, p.code ≠ code) :
    productAnchors date baseline rates code type = none := by
  have hNone : type.products.reverse.find? (·.code = code) = none :=
    List.find?_eq_none.mpr fun p hp => by simpa using h p (List.mem_reverse.mp hp)
  rw [productAnchors, hNone]
  cases typeAnchors date baseline rates type <;> rfl

theorem lookup_decided (hType : typeAnchors date baseline rates type = some anchors)
    (hDecides : DecidesPrice types type product) :
    (catalogAnchorsAt date baseline types rates).lookup product.code = some (anchors.times product.multiplier) := by
  obtain ⟨before, after, rfl, hAfter⟩ := hDecides.types
  obtain ⟨first, last, hProducts, hLast⟩ := hDecides.products
  have hLater : after.reverse.findSome? (productAnchors date baseline rates product.code) = none :=
    List.findSome?_eq_none_iff.mpr fun t ht => productAnchors_other (hAfter t (List.mem_reverse.mp ht))
  rw [lookup_catalogAnchorsAt, List.reverse_append, List.reverse_cons, List.append_assoc, List.findSome?_append, hLater,
    Option.none_or, List.singleton_append, List.findSome?_cons, productAnchors_decided hType hProducts hLast]
  rfl

end

/-! ## The trial is the order -/

section

variable {policy : PricingPolicy} {unit : PricedUnit} {anchors : DurationBandAnchors}

theorem unitTimeline_segments (h : requireDurationAnchors policy unit.inventoryProductCode = .ok anchors)
    (dates : List Nat) (band : DurationBandAnchorNights) :
    ∃ segments, calculationSegments policy band (unitTimeline unit dates) = .ok segments ∧
      (segments.map CalculationSegment.numeratorMinor).sum = dates.length * anchors.minor band := by
  have hPriced : ∀ item ∈ unitTimeline unit dates,
      ∃ anchors, requireDurationAnchors policy item.inventoryProductCode = .ok anchors := by
    intro item hItem
    obtain ⟨date, -, rfl⟩ := List.mem_map.mp hItem
    exact ⟨anchors, h⟩
  obtain ⟨segments, hSegments⟩ := calculationSegments_accepted band hPriced
  obtain ⟨hOk, hNights⟩ := segments_nights hSegments
  have hAnchor : bandAnchor policy band unit.inventoryProductCode = anchors.minor band := by
    rw [bandAnchor, (requireDurationAnchors_eq_ok.mp h).1]
    rfl
  refine ⟨segments, hSegments, ?_⟩
  rw [numerators_eq hOk, hNights, unitTimeline, List.map_map, List.map_map]
  simp [Function.comp_def, PricingTimelineItem.night, hAnchor]

/-- An order for nights in one unit is priced, and its total is the rounded multiple of the anchor. -/
theorem unitStay_ok {arrivalDate departureDate : Nat} {stayType : StayType}
    (hStay : arrivalDate < departureDate ∧ departureDate - arrivalDate ≤ 366)
    (hPriced : requireDurationAnchors policy unit.inventoryProductCode = .ok anchors)
    (hAnchors : ∀ band, 0 < anchors.minor band ∧ anchors.minor band ≤ maxAnchorMinor)
    (hKind : policy.calculationKind = .durationBandTotal ∧ policy.stayType = none)
    (hEffective : assertPolicyEffective policy arrivalDate = .ok ()) (hPaid : stayType ≠ .free) :
    ∃ price, calculateDurationTimelinePricing ⟨arrivalDate, departureDate, stayType, policy, false, [], 0⟩
        (unitTimeline unit (serviceDates arrivalDate departureDate)) = .ok price ∧
      price.cashRemainder.minorUnits =
        roundedMinor ((departureDate - arrivalDate) *
          anchors.minor (durationBandAnchorNights (departureDate - arrivalDate)))
          (durationBandAnchorNights (departureDate - arrivalDate)).nights := by
  obtain ⟨hArrival, hNights⟩ := hStay
  have hLength : (serviceDates arrivalDate departureDate).length = departureDate - arrivalDate := serviceDates_length ..
  obtain ⟨exact, -, hSafe, hTotalSafe⟩ := calculateDurationBandTotalMinor_ok hNights hAnchors
  obtain ⟨segments, hSegments, hNumerators⟩ := unitTimeline_segments hPriced
    (serviceDates arrivalDate departureDate) (durationBandAnchorNights (departureDate - arrivalDate))
  rw [hLength] at hNumerators
  have hTimeline : (unitTimeline unit (serviceDates arrivalDate departureDate)).map PricingTimelineItem.serviceDate =
      serviceDates arrivalDate departureDate := by
    rw [unitTimeline, List.map_map]
    exact List.map_id _
  have hHead : ∃ first, (unitTimeline unit (serviceDates arrivalDate departureDate)).head? = some first := by
    rw [unitTimeline, serviceDates_cons hArrival]
    exact ⟨_, rfl⟩
  obtain ⟨first, hFirst⟩ := hHead
  rw [← hNumerators] at hSafe hTotalSafe
  let input : PricingInput := ⟨arrivalDate, departureDate, stayType, policy, false, [], 0⟩
  have hBand : ∃ price, bandPricing input (unitTimeline unit (serviceDates arrivalDate departureDate))
      (serviceDates arrivalDate departureDate).length [] 0 = .ok price ∧ price.cashRemainder.minorUnits =
        roundedMinor (segments.map CalculationSegment.numeratorMinor).sum
          (durationBandAnchorNights (departureDate - arrivalDate)).nights := by
    simp only [bandPricing, hLength, bind_eq_ok, require_eq_ok, applyManualAdjustment_eq_ok, expect_eq_ok, pure_eq_ok]
    exact ⟨_, ⟨segments, hSegments, (), hSafe, (), hTotalSafe, _,
      ⟨rfl, by omega, by omega, by simp⟩, first, hFirst, rfl⟩, rfl⟩
  obtain ⟨price, hPrice, hRemainder⟩ := hBand
  rw [hNumerators] at hRemainder
  refine ⟨price, ?_, hRemainder⟩
  simp only [calculateDurationTimelinePricing, bind_eq_ok, require_eq_ok, validateManualAdjustment_eq_ok,
    enumerateServiceDates_eq_ok, coverTimeline_nil, assertCandidates]
  exact ⟨(), ⟨hPaid, hKind⟩, (), hEffective, (), (requireDurationAnchors_eq_ok.mp hPriced).2.2, 0, by simp, _,
    ⟨hArrival, hNights, rfl⟩, (), hTimeline, (), by simp, [], rfl, by rw [if_neg (by simp)]; exact hPrice⟩

end

theorem trialRoomRate_ok {anchors : RoomRateAnchors}
    (hAnchors : ∀ band, 1 ≤ anchors.bands.minor band ∧ anchors.bands.minor band ≤ 20000000) {multiplier : Nat}
    (hMultiplier : 1 ≤ multiplier ∧ multiplier ≤ 100) {arrivalDate departureDate : Nat}
    (hStay : arrivalDate < departureDate ∧ departureDate - arrivalDate ≤ 366)
    (hBounds : ∀ band, 0 < (anchors.times multiplier).bands.minor band ∧
      (anchors.times multiplier).bands.minor band ≤ maxAnchorMinor) :
    trialRoomRate (some anchors) arrivalDate departureDate multiplier = .ok {
      nights := departureDate - arrivalDate
      anchorNights := durationBandAnchorNights (departureDate - arrivalDate)
      amountMinor := roundedMinor ((departureDate - arrivalDate) *
        (anchors.times multiplier).bands.minor (durationBandAnchorNights (departureDate - arrivalDate)))
        (durationBandAnchorNights (departureDate - arrivalDate)).nights } := by
  obtain ⟨exact, hTotal, -⟩ := calculateDurationBandTotalMinor_ok hStay.2 hBounds
  simp only [trialRoomRate, bind_eq_ok, require_eq_ok, mapError_eq_ok, pure_eq_ok, enumerateServiceDates_eq_ok]
  refine ⟨anchors, validateRoomRateAnchors_eq_ok.mpr ⟨hAnchors, rfl⟩, (), hMultiplier, _, ⟨hStay.1, hStay.2, rfl⟩, _,
    (serviceDates_length ..).symm ▸ hTotal, ?_⟩
  rw [serviceDates_length]

/-- The trial price of four anchors and a multiplier is the cash remainder of an order for the same nights in
one unit, and no guard of either calculation is met. -/
theorem trial_price_is_order_price {anchors : RoomRateAnchors}
    (hAnchors : ∀ band, 1 ≤ anchors.bands.minor band ∧ anchors.bands.minor band ≤ 20000000) {multiplier : Nat}
    (hMultiplier : 1 ≤ multiplier ∧ multiplier ≤ 100) {arrivalDate departureDate : Nat}
    (hStay : arrivalDate < departureDate ∧ departureDate - arrivalDate ≤ 366)
    {date : Nat} {baseline : PriceTable} {rates : List RoomRateChange} {types : List ManagedRoomType}
    {type : ManagedRoomType} {product : RoomTypeProduct}
    (hType : typeAnchors date baseline rates type = some anchors) (hProduct : product.multiplier = multiplier)
    (hDecides : DecidesPrice types type product) {policy : PricingPolicy} {codeText : Nat → Label}
    (hPolicy : CatalogPriced policy codeText (catalogAnchorsAt date baseline types rates))
    (hEffective : assertPolicyEffective policy arrivalDate = .ok ()) {stayType : StayType} (hPaid : stayType ≠ .free)
    {unit : PricedUnit} (hUnit : unit.inventoryProductCode.map codeText = some product.code) :
    ∃ trial price, trialRoomRate (some anchors) arrivalDate departureDate multiplier = .ok trial ∧
      calculateDurationTimelinePricing ⟨arrivalDate, departureDate, stayType, policy, false, [], 0⟩
        (unitTimeline unit (serviceDates arrivalDate departureDate)) = .ok price ∧
      trial.nights = departureDate - arrivalDate ∧ price.cashRemainder.minorUnits = trial.amountMinor := by
  have hBounds : ∀ band, 0 < (anchors.times multiplier).bands.minor band ∧
      (anchors.times multiplier).bands.minor band ≤ maxAnchorMinor := by
    intro band
    rw [times_bands]
    exact ⟨Nat.mul_pos (hAnchors band).1 hMultiplier.1, Nat.mul_le_mul (hAnchors band).2 hMultiplier.2⟩
  have hTable : unit.inventoryProductCode.bind policy.productAnchorRatesMinor = some (anchors.times multiplier).bands := by
    obtain ⟨code, hCode, hText⟩ := Option.map_eq_some_iff.mp hUnit
    rw [hCode, Option.bind_some, hPolicy.table, hText, lookup_decided hType hDecides, hProduct]
    rfl
  have hPriced : requireDurationAnchors policy unit.inventoryProductCode = .ok (anchors.times multiplier).bands :=
    requireDurationAnchors_eq_ok.mpr
      ⟨hTable, fun band => ⟨(hBounds band).1, (hBounds band).2.trans (by decide)⟩, hPolicy.rounds⟩
  obtain ⟨price, hPrice, hRemainder⟩ :=
    unitStay_ok hStay hPriced hBounds ⟨hPolicy.kind, hPolicy.stayType⟩ hEffective hPaid
  exact ⟨_, price, trialRoomRate_ok hAnchors hMultiplier hStay hBounds, hPrice, rfl, hRemainder⟩

/-! ## A double room, sold by the bed and as a whole -/

def sampleAnchors : RoomRateAnchors := ⟨6800, 38000, 55000, 90000⟩

def sampleDouble : ManagedRoomType where
  code := ['d']
  name := ['d']
  bathroom := .sharedBath
  saleMode := .bed
  bedCount := 2
  capacity := 2
  active := true
  products := [⟨['b'], .bed, 1⟩, ⟨['w'], .room, 2⟩]

def sampleTable : PriceTable := catalogAnchorsAt 3 [(['b'], sampleAnchors)] [sampleDouble] []

def sampleTablePolicy : PricingPolicy where
  id := 1
  stayType := none
  calculationKind := .durationBandTotal
  nightlyRateMinor := none
  productAnchorRatesMinor code := (sampleTable.lookup (if code = 1 then ['w'] else ['b'])).map RoomRateAnchors.bands
  effectiveFrom := some 3
  effectiveUntil := none
  roundsFinalTotal := true
  currency := sampleCny

theorem trial_price_is_order_price_sample :
    ∃ trial price, trialRoomRate (some sampleAnchors) 4 17 2 = .ok trial ∧
      calculateDurationTimelinePricing ⟨4, 17, .custom, sampleTablePolicy, false, [], 0⟩
        (unitTimeline ⟨7, .room, some 1⟩ (serviceDates 4 17)) = .ok price ∧
      trial.nights = 13 ∧ price.cashRemainder.minorUnits = trial.amountMinor := by
  have hAnchors : ∀ band, 1 ≤ sampleAnchors.bands.minor band ∧ sampleAnchors.bands.minor band ≤ 20000000 := by
    intro band
    cases band <;> decide
  have hDecides : DecidesPrice [sampleDouble] sampleDouble ⟨['w'], .room, 2⟩ :=
    ⟨⟨[], [], rfl, by simp⟩, ⟨[⟨['b'], .bed, 1⟩], [], rfl, by simp⟩⟩
  have hPolicy : CatalogPriced sampleTablePolicy (fun code => if code = 1 then ['w'] else ['b']) sampleTable :=
    ⟨rfl, rfl, rfl, fun _ => rfl⟩
  exact trial_price_is_order_price hAnchors (by decide) (by decide) (by decide) rfl hDecides hPolicy rfl (by decide) rfl

end GreenPms
