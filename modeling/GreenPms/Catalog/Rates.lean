import GreenPms.Catalog.Rooms

/-! # The prices of room types

A type sells at its last published rate, and before the first one at the baseline price of its source
product; the other products of the type are multiples. The catalog publishes a policy for each date at
which a baseline or a rate starts.
-/

namespace GreenPms

def RoomRateAnchors.times (anchors : RoomRateAnchors) (multiplier : Nat) : RoomRateAnchors where
  one := anchors.one * multiplier
  seven := anchors.seven * multiplier
  fourteen := anchors.fourteen * multiplier
  thirty := anchors.thirty * multiplier

def CatalogSettings.baselineRows (settings : CatalogSettings) : List DurationPolicy :=
  settings.baselines.insertionSort fun a b =>
    if a.effectiveFrom = b.effectiveFrom then
      if a.version = b.version then labelLe a.id b.id = true else a.version ≤ b.version
    else a.effectiveFrom ≤ b.effectiveFrom

def DurationPolicy.inForce (policy : DurationPolicy) (date : Nat) : Bool :=
  policy.effectiveFrom ≤ date ∧ ∀ until_ ∈ policy.effectiveUntil, date < until_

def baselineAt (baselines : List DurationPolicy) (date : Nat) : PriceTable :=
  ((baselines.filter (·.inForce date)).getLast?.map (·.anchors)).getD []

def lastRate (rates : List RoomRateChange) (typeCode : Label) (date : Nat) : Option RoomRateChange :=
  ((rates.filter fun rate => rate.typeCode = typeCode ∧ rate.effectiveFrom ≤ date).insertionSort fun a b =>
    if a.effectiveFrom = b.effectiveFrom then a.version ≤ b.version else a.effectiveFrom ≤ b.effectiveFrom).getLast?

def typeAnchors (date : Nat) (baseline : PriceTable) (rates : List RoomRateChange) (type : ManagedRoomType) :
    Option RoomRateAnchors :=
  match lastRate rates type.code date with
  | some last => some last.anchors
  | none =>
      (type.products.find? fun product => product.multiplier = 1 ∧ (baseline.lookup product.code).isSome).bind
        fun source => baseline.lookup source.code

def catalogAnchorsAt (date : Nat) (baseline : PriceTable) (types : List ManagedRoomType) (rates : List RoomRateChange) :
    PriceTable :=
  types.foldl (fun result type =>
    match typeAnchors date baseline rates type with
    | none => result
    | some anchors =>
        type.products.foldl (fun result product => (product.code, anchors.times product.multiplier) :: result) result)
    baseline

def policyDates (baselines : List DurationPolicy) (rates : List RoomRateChange) : List Nat :=
  (baselines.map (·.effectiveFrom) ++ rates.map (·.effectiveFrom)).eraseDups.insertionSort (· ≤ ·)

def preparePolicies (policyId : Nat → PriceTable → Label) (baselines : List DurationPolicy)
    (types : List ManagedRoomType) (rates : List RoomRateChange) : List CatalogPolicy :=
  (policyDates baselines rates).flatMap fun date =>
    let anchors := catalogAnchorsAt date (baselineAt baselines date) types rates
    if anchors = [] then [] else [⟨policyId date anchors, date, anchors⟩]

def productAnchors (date : Nat) (baseline : PriceTable) (rates : List RoomRateChange) (code : Label)
    (type : ManagedRoomType) : Option RoomRateAnchors :=
  (typeAnchors date baseline rates type).bind fun anchors =>
    (type.products.reverse.find? (·.code = code)).map fun product => anchors.times product.multiplier

theorem mem_policyDates {baselines : List DurationPolicy} {rates : List RoomRateChange} {date : Nat} :
    date ∈ policyDates baselines rates ↔
      (∃ policy ∈ baselines, policy.effectiveFrom = date) ∨ ∃ rate ∈ rates, rate.effectiveFrom = date := by
  simp [policyDates, List.mem_insertionSort, List.mem_eraseDups]

theorem mem_preparePolicies {policyId : Nat → PriceTable → Label} {baselines : List DurationPolicy}
    {types : List ManagedRoomType} {rates : List RoomRateChange} {policy : CatalogPolicy}
    (h : policy ∈ preparePolicies policyId baselines types rates) :
    policy.effectiveFrom ∈ policyDates baselines rates ∧ policy.anchors ≠ [] ∧
      policy.anchors = catalogAnchorsAt policy.effectiveFrom (baselineAt baselines policy.effectiveFrom) types rates := by
  obtain ⟨date, hDate, hPolicy⟩ := List.mem_flatMap.mp h
  dsimp only at hPolicy
  split at hPolicy
  case isTrue => cases hPolicy
  case isFalse hPriced =>
    obtain rfl := List.mem_singleton.mp hPolicy
    exact ⟨hDate, hPriced, rfl⟩

theorem preparePolicies_complete (policyId : Nat → PriceTable → Label) {baselines : List DurationPolicy}
    {types : List ManagedRoomType} {rates : List RoomRateChange} {date : Nat} (hDate : date ∈ policyDates baselines rates)
    (hPriced : catalogAnchorsAt date (baselineAt baselines date) types rates ≠ []) :
    ∃ policy ∈ preparePolicies policyId baselines types rates, policy.effectiveFrom = date := by
  let anchors := catalogAnchorsAt date (baselineAt baselines date) types rates
  refine ⟨⟨policyId date anchors, date, anchors⟩, List.mem_flatMap.mpr ⟨date, hDate, ?_⟩, rfl⟩
  dsimp only
  rw [if_neg hPriced]
  exact List.mem_singleton.mpr rfl

section Prices

variable {date : Nat} {baseline : PriceTable} {rates : List RoomRateChange} {code : Label}

theorem lookup_foldl_products (anchors : RoomRateAnchors) (products : List RoomTypeProduct) (result : PriceTable) :
    (products.foldl (fun result product => (product.code, anchors.times product.multiplier) :: result) result).lookup code =
      ((products.reverse.find? (·.code = code)).map fun product => anchors.times product.multiplier).or
        (result.lookup code) := by
  induction products generalizing result with
  | nil => simp
  | cons product products ih =>
    rw [List.foldl_cons, ih, List.reverse_cons, List.find?_append, List.find?_singleton, List.lookup_cons]
    by_cases hCode : product.code = code
    · cases products.reverse.find? (·.code = code) <;> simp [hCode]
    · have hOther : (code == product.code) = false := beq_false_of_ne (Ne.symm hCode)
      cases products.reverse.find? (·.code = code) <;> simp [hCode, hOther]

/-- The last type that prices a product decides its price, and the baseline where no type does. -/
theorem lookup_catalogAnchorsAt (types : List ManagedRoomType) :
    (catalogAnchorsAt date baseline types rates).lookup code =
      (types.reverse.findSome? (productAnchors date baseline rates code)).or (baseline.lookup code) := by
  suffices h : ∀ result : PriceTable,
      (types.foldl (fun result type =>
        match typeAnchors date baseline rates type with
        | none => result
        | some anchors =>
            type.products.foldl (fun result product => (product.code, anchors.times product.multiplier) :: result)
              result) result).lookup code =
        (types.reverse.findSome? (productAnchors date baseline rates code)).or (result.lookup code) from h baseline
  induction types with
  | nil =>
    intro result
    rfl
  | cons type types ih =>
    intro result
    rw [List.foldl_cons, ih, List.reverse_cons, List.findSome?_append, Option.or_assoc]
    congr 1
    cases hAnchors : typeAnchors date baseline rates type with
    | none => simp [productAnchors, hAnchors]
    | some anchors =>
      dsimp only
      rw [lookup_foldl_products]
      cases hFind : type.products.reverse.find? (·.code = code) <;> simp [productAnchors, hAnchors, hFind]

theorem catalogAnchorsAt_ne_nil (types : List ManagedRoomType) :
    catalogAnchorsAt date baseline types rates ≠ [] ↔
      ∃ code, ((catalogAnchorsAt date baseline types rates).lookup code).isSome := by
  constructor
  · intro h
    obtain ⟨⟨code, anchors⟩, rest, hTable⟩ := List.exists_cons_of_ne_nil h
    exact ⟨code, by rw [hTable, List.lookup_cons_self]; rfl⟩
  · rintro ⟨code, hCode⟩ hNil
    rw [hNil] at hCode
    cases hCode

theorem typeAnchors_of_unpriced {type : ManagedRoomType} (hRates : ∀ rate ∈ rates, rate.typeCode ≠ type.code)
    (hProducts : ∀ product ∈ type.products, baseline.lookup product.code = none) :
    typeAnchors date baseline rates type = none := by
  have hLast : lastRate rates type.code date = none := by
    have hFilter : (rates.filter fun rate => rate.typeCode = type.code ∧ rate.effectiveFrom ≤ date) = [] := by
      simpa using fun rate hRate hCode => absurd hCode (hRates rate hRate)
    rw [lastRate, hFilter]
    rfl
  have hSource : (type.products.find? fun product => product.multiplier = 1 ∧ (baseline.lookup product.code).isSome) =
      none := by
    refine List.find?_eq_none.mpr fun product hProduct => ?_
    simp only [hProducts product hProduct, Option.isSome_none, Bool.false_eq_true, and_false, decide_false,
      not_false_eq_true]
  rw [typeAnchors, hLast]
  dsimp only
  rw [hSource]
  rfl

theorem productAnchors_of_unpriced {type : ManagedRoomType} (hRates : ∀ rate ∈ rates, rate.typeCode ≠ type.code)
    (hProducts : ∀ product ∈ type.products, baseline.lookup product.code = none) :
    productAnchors date baseline rates code type = none := by
  rw [productAnchors, typeAnchors_of_unpriced hRates hProducts]
  rfl

end Prices

end GreenPms
