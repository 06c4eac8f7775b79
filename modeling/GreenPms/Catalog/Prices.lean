import GreenPms.Catalog.Changes

/-! # How the catalog price of a product changes

From one day to the next it changes only when a baseline or a rate starts, as long as no baseline runs out
without a successor. An action that publishes nothing keeps every price, a placed room keeps the prices
that there are, and a rate touches its own type from its own date.
-/

namespace GreenPms

open CatalogBasis

def catalogPrice (settings : CatalogSettings) (types : List ManagedRoomType) (rates : List RoomRateChange) (date : Nat)
    (code : Label) : Option RoomRateAnchors :=
  (catalogAnchorsAt date (baselineAt settings.baselineRows date) types rates).lookup code

/-- The baseline prices change only on days on which a baseline starts. -/
def BaselinesHandOver (settings : CatalogSettings) : Prop :=
  ∀ date, (∀ policy ∈ settings.baselines, policy.effectiveFrom ≠ date + 1) →
    baselineAt settings.baselineRows (date + 1) = baselineAt settings.baselineRows date

def Unpriced (settings : CatalogSettings) (code : Label) : Prop :=
  ∀ policy ∈ settings.baselines, policy.anchors.lookup code = none

variable {settings : CatalogSettings} {types : List ManagedRoomType} {rates : List RoomRateChange} {date : Nat}
  {code : Label}

theorem mem_baselineRows {policy : DurationPolicy} : policy ∈ settings.baselineRows ↔ policy ∈ settings.baselines :=
  List.mem_insertionSort _

theorem baselineAt_cases (settings : CatalogSettings) (date : Nat) : (baselineAt settings.baselineRows date = [] ∧
      ∀ policy ∈ settings.baselines, policy.inForce date = false) ∨
    ∃ policy ∈ settings.baselines, baselineAt settings.baselineRows date = policy.anchors := by
  cases hLast : (settings.baselineRows.filter (·.inForce date)).getLast? with
  | none =>
    rw [List.getLast?_eq_none_iff, List.filter_eq_nil_iff] at hLast
    refine .inl ⟨?_, fun policy hPolicy => by simpa using hLast policy (mem_baselineRows.mpr hPolicy)⟩
    rw [baselineAt, List.filter_eq_nil_iff.mpr hLast]
    rfl
  | some policy =>
    have hMem := List.mem_of_getLast? hLast
    exact .inr ⟨policy, mem_baselineRows.mp (List.mem_filter.mp hMem).1, by rw [baselineAt, hLast]; rfl⟩

theorem lookup_baselineAt_of_unpriced (h : Unpriced settings code) :
    (baselineAt settings.baselineRows date).lookup code = none := by
  obtain ⟨hNil, -⟩ | ⟨policy, hPolicy, hAnchors⟩ := baselineAt_cases settings date
  · rw [hNil]
    rfl
  · rw [hAnchors]
    exact h policy hPolicy

/-- Baseline prices do not vanish: a day without a start keeps them, and a policy that starts prices something. -/
theorem baselineAt_succ_ne_nil (h : BaselinesHandOver settings) (hNow : baselineAt settings.baselineRows date ≠ []) :
    baselineAt settings.baselineRows (date + 1) ≠ [] := by
  by_cases hStarts : ∃ policy ∈ settings.baselines, policy.effectiveFrom = date + 1
  · obtain ⟨policy, hPolicy, hStart⟩ := hStarts
    obtain ⟨-, hNone⟩ | ⟨other, -, hAnchors⟩ := baselineAt_cases settings (date + 1)
    · have hForce : policy.inForce (date + 1) = true := by
        simp only [DurationPolicy.inForce, decide_eq_true_eq]
        exact ⟨by omega, fun until_ hUntil => hStart ▸ policy.interval until_ hUntil⟩
      rw [hNone policy hPolicy] at hForce
      cases hForce
    · rw [hAnchors]
      exact other.priced
  · rw [h date fun policy hPolicy hStart => hStarts ⟨policy, hPolicy, hStart⟩]
    exact hNow

theorem lastRate_isSome {typeCode : Label} :
    (lastRate rates typeCode date).isSome ↔ ∃ rate ∈ rates, rate.typeCode = typeCode ∧ rate.effectiveFrom ≤ date := by
  rw [lastRate, Option.isSome_iff_ne_none, ne_eq, List.getLast?_eq_none_iff]
  rw [← List.length_eq_zero_iff, List.length_insertionSort, List.length_eq_zero_iff, List.filter_eq_nil_iff]
  simp only [decide_eq_true_eq, not_forall, not_not, exists_prop]

theorem lastRate_congr {others : List RoomRateChange} {typeCode : Label} {other : Nat}
    (h : (rates.filter fun rate => rate.typeCode = typeCode ∧ rate.effectiveFrom ≤ date) =
      others.filter fun rate => rate.typeCode = typeCode ∧ rate.effectiveFrom ≤ other) :
    lastRate rates typeCode date = lastRate others typeCode other := by
  rw [lastRate, h]
  rfl

theorem catalogPrice_eq : catalogPrice settings types rates date code =
    (types.reverse.findSome? (productAnchors date (baselineAt settings.baselineRows date) rates code)).or
      ((baselineAt settings.baselineRows date).lookup code) :=
  lookup_catalogAnchorsAt types

theorem catalogPrice_isSome : (catalogPrice settings types rates date code).isSome ↔
    (∃ type ∈ types, (productAnchors date (baselineAt settings.baselineRows date) rates code type).isSome) ∨
      ((baselineAt settings.baselineRows date).lookup code).isSome := by
  simp [catalogPrice_eq, Option.isSome_or, List.findSome?_isSome_iff]

theorem typeAnchors_isSome {baseline : PriceTable} {type : ManagedRoomType} :
    (typeAnchors date baseline rates type).isSome ↔ (lastRate rates type.code date).isSome ∨
      ∃ product ∈ type.products, product.multiplier = 1 ∧ (baseline.lookup product.code).isSome := by
  rw [typeAnchors]
  cases hLast : lastRate rates type.code date with
  | some last => simp
  | none =>
    simp only [Option.isSome_none, Bool.false_eq_true, false_or]
    cases hSource : type.products.find? fun product => product.multiplier = 1 ∧ (baseline.lookup product.code).isSome with
    | none =>
      simp only [List.find?_eq_none, decide_eq_true_eq] at hSource
      simpa using hSource
    | some source =>
      have hMem := List.mem_of_find?_eq_some hSource
      have hHolds := List.find?_some hSource
      simp only [decide_eq_true_eq] at hHolds
      simp only [Option.bind_some, hHolds.2, true_iff]
      exact ⟨source, hMem, hHolds⟩

theorem productAnchors_isSome {baseline : PriceTable} {type : ManagedRoomType} :
    (productAnchors date baseline rates code type).isSome ↔
      (typeAnchors date baseline rates type).isSome ∧ ∃ product ∈ type.products, product.code = code := by
  rw [productAnchors]
  cases typeAnchors date baseline rates type with
  | none => simp
  | some anchors => simp [List.find?_isSome]

theorem lookup_ne_nil {table : PriceTable} (h : (table.lookup code).isSome) : table ≠ [] := by
  rintro rfl
  cases h

/-- What is priced one day is priced the next, though not always the same products. -/
theorem priced_succ (h : BaselinesHandOver settings) (hNow : (catalogPrice settings types rates date code).isSome) :
    ∃ next, (catalogPrice settings types rates (date + 1) next).isSome := by
  have hBaseline : baselineAt settings.baselineRows date ≠ [] →
      ∃ next, (catalogPrice settings types rates (date + 1) next).isSome := by
    intro hTable
    obtain ⟨⟨next, anchors⟩, rest, hNext⟩ := List.exists_cons_of_ne_nil (baselineAt_succ_ne_nil h hTable)
    exact ⟨next, catalogPrice_isSome.mpr (.inr (by rw [hNext, List.lookup_cons_self]; rfl))⟩
  obtain ⟨type, hType, hPriced⟩ | hLookup := catalogPrice_isSome.mp hNow
  · obtain ⟨hAnchors, product, hProduct, hCode⟩ := productAnchors_isSome.mp hPriced
    obtain hRate | ⟨source, -, -, hSource⟩ := typeAnchors_isSome.mp hAnchors
    · refine ⟨code, catalogPrice_isSome.mpr (.inl ⟨type, hType, productAnchors_isSome.mpr ⟨?_, product, hProduct, hCode⟩⟩)⟩
      obtain ⟨rate, hRate, hSame, hStart⟩ := lastRate_isSome.mp hRate
      exact typeAnchors_isSome.mpr (.inl (lastRate_isSome.mpr ⟨rate, hRate, hSame, by omega⟩))
    · exact hBaseline (lookup_ne_nil hSource)
  · exact hBaseline (lookup_ne_nil hLookup)

/-- A day on which neither a baseline nor a rate starts keeps every price. -/
theorem catalogPrice_succ (h : BaselinesHandOver settings) (hDate : date + 1 ∉ policyDates settings.baselineRows rates) :
    catalogPrice settings types rates (date + 1) code = catalogPrice settings types rates date code := by
  rw [mem_policyDates, not_or] at hDate
  have hBaseline := h date fun policy hPolicy hStart => hDate.1 ⟨policy, mem_baselineRows.mpr hPolicy, hStart⟩
  have hRates : ∀ typeCode, lastRate rates typeCode (date + 1) = lastRate rates typeCode date := by
    intro typeCode
    refine lastRate_congr (List.filter_congr fun rate hRate => ?_)
    have hStart : rate.effectiveFrom ≠ date + 1 := fun hStart => hDate.2 ⟨rate, hRate, hStart⟩
    simp only [decide_eq_decide, and_congr_right_iff]
    omega
  have hProducts : productAnchors (date + 1) (baselineAt settings.baselineRows date) rates code =
      productAnchors date (baselineAt settings.baselineRows date) rates code := by
    funext type
    simp only [productAnchors, typeAnchors, hRates]
  rw [catalogPrice_eq, catalogPrice_eq, hBaseline, hProducts]

/-- The types that no unit names have no product with a baseline price. -/
def UnusedTypesUnpriced (settings : CatalogSettings) (units : List CatalogUnit) (types : List ManagedRoomType) : Prop :=
  ∀ type ∈ types, (∀ unit ∈ units, unit.roomTypeCode ≠ some type.code) →
    ∀ product ∈ type.products, Unpriced settings product.code

theorem findSome?_filter {α β : Type} {p : α → Bool} {f : α → Option β} {xs : List α}
    (h : ∀ x ∈ xs, p x = false → f x = none) : (xs.filter p).findSome? f = xs.findSome? f := by
  induction xs with
  | nil => rfl
  | cons x xs ih =>
    have hRest := ih fun y hy => h y (List.mem_cons_of_mem x hy)
    cases hp : p x with
    | true => rw [List.filter_cons_of_pos hp, List.findSome?_cons, List.findSome?_cons, hRest]
    | false =>
      rw [List.filter_cons_of_neg (by simp [hp]), List.findSome?_cons, h x List.mem_cons_self hp, hRest]

theorem findSome?_replace {α β : Type} {f : α → Option β} {as bs : List α} {x y : α} (h : f x = f y) :
    (as ++ x :: bs).reverse.findSome? f = (as ++ y :: bs).reverse.findSome? f := by
  simp only [List.reverse_append, List.reverse_cons, List.findSome?_append, List.findSome?_singleton, h]

theorem findSome?_congr {α β : Type} {f g : α → Option β} {xs : List α} (h : ∀ x ∈ xs, f x = g x) :
    xs.findSome? f = xs.findSome? g := by
  induction xs with
  | nil => rfl
  | cons x xs ih =>
    rw [List.findSome?_cons, List.findSome?_cons, h x List.mem_cons_self, ih fun y hy => h y (List.mem_cons_of_mem x hy)]

theorem CatalogBasis.SnapshotChange.keeps_prices {basis : CatalogBasis} {newCode : Option Label} {made : List RoomTypeProduct}
    {after : RoomCatalogSnapshot} (h : SnapshotChange basis newCode made after)
    (hUnused : UnusedTypesUnpriced settings basis.units basis.snapshot.types)
    (hMade : ∀ product ∈ made, Unpriced settings product.code)
    (hCode : ∀ typeCode ∈ newCode, ∀ rate ∈ basis.snapshot.rates, rate.typeCode ≠ typeCode) :
    catalogPrice settings after.types after.rates date code =
      catalogPrice settings basis.snapshot.types basis.snapshot.rates date code := by
  have hNone : ∀ type : ManagedRoomType, (∀ rate ∈ basis.snapshot.rates, rate.typeCode ≠ type.code) →
      (∀ product ∈ type.products, Unpriced settings product.code) →
      productAnchors date (baselineAt settings.baselineRows date) basis.snapshot.rates code type = none :=
    fun type hRates hProducts => productAnchors_of_unpriced hRates fun product hProduct =>
      lookup_baselineAt_of_unpriced (hProducts product hProduct)
  rw [catalogPrice_eq, catalogPrice_eq]
  cases h with
  | kept hTypes hRates => rw [hTypes, hRates]
  | added type hType hProducts hTypes hRates =>
    rw [hTypes, hRates, List.reverse_append, List.findSome?_append, List.reverse_singleton, List.findSome?_singleton,
      hNone type (hCode type.code hType) fun product hProduct => hMade product (hProducts product hProduct)]
    rfl
  | saved as bs old new hOld hNew hRates hSame hProducts =>
    have hPrices : productAnchors date (baselineAt settings.baselineRows date) basis.snapshot.rates code new =
        productAnchors date (baselineAt settings.baselineRows date) basis.snapshot.rates code old := by
      simp only [productAnchors, typeAnchors, hSame, hProducts]
    rw [hOld, hNew, hRates, findSome?_replace hPrices]
  | switched as bs old new hOld hNew hRates hSame hUnits hUnrated hProducts =>
    have hBefore := hNone old hUnrated (hUnused old (by rw [hOld]; simp) hUnits)
    have hAfter := hNone new (hSame ▸ hUnrated) fun product hProduct => hMade product (hProducts product hProduct)
    rw [hOld, hNew, hRates, findSome?_replace (hAfter.trans hBefore.symm)]
  | deleted deletedCode hTypes hRates hUnits hUnrated =>
    rw [hTypes, hRates, ← List.filter_reverse, findSome?_filter]
    intro type hType hDeleted
    obtain rfl : type.code = deletedCode := by simpa using hDeleted
    exact hNone type hUnrated (hUnused type (List.mem_reverse.mp hType) hUnits)

theorem CatalogBasis.RoomPlaced.keeps_price {basis : CatalogBasis} {type : ManagedRoomType} {bedCount : Nat} {after : RoomCatalogSnapshot}
    (h : RoomPlaced basis type bedCount after)
    (hNew : ∀ product ∈ type.addedProducts bedCount, Unpriced settings product.code ∧
      ∀ other ∈ basis.snapshot.types, ∀ used ∈ other.products, used.code ≠ product.code)
    (hPriced : (catalogPrice settings basis.snapshot.types basis.snapshot.rates date code).isSome) :
    catalogPrice settings after.types after.rates date code =
      catalogPrice settings basis.snapshot.types basis.snapshot.rates date code := by
  obtain ⟨⟨as, bs, hOld, hAfter⟩, hRates⟩ := h
  have hAnchors : typeAnchors date (baselineAt settings.baselineRows date) basis.snapshot.rates (type.withRoom bedCount) =
      typeAnchors date (baselineAt settings.baselineRows date) basis.snapshot.rates type := by
    have hAdded : ((type.addedProducts bedCount).find? fun product => product.multiplier = 1 ∧
        ((baselineAt settings.baselineRows date).lookup product.code).isSome) = none := by
      refine List.find?_eq_none.mpr fun product hProduct => ?_
      simp only [lookup_baselineAt_of_unpriced (hNew product hProduct).1, Option.isSome_none, Bool.false_eq_true, and_false,
        decide_false, not_false_eq_true]
    simp only [typeAnchors, ManagedRoomType.withRoom, List.find?_append, hAdded, Option.or_none]
  have hOther : ∀ product ∈ type.addedProducts bedCount, product.code ≠ code := by
    rintro product hProduct rfl
    obtain ⟨hBaseline, hTypes⟩ := hNew product hProduct
    obtain ⟨other, hOther, hSome⟩ | hLookup := catalogPrice_isSome.mp hPriced
    · obtain ⟨-, used, hUsed, hCode⟩ := productAnchors_isSome.mp hSome
      exact hTypes other hOther used hUsed hCode
    · rw [lookup_baselineAt_of_unpriced hBaseline] at hLookup
      cases hLookup
  have hFind : ((type.addedProducts bedCount).reverse.find? fun product => product.code = code) = none :=
    List.find?_eq_none.mpr fun product hProduct => by simpa using hOther product (List.mem_reverse.mp hProduct)
  have hPrices : productAnchors date (baselineAt settings.baselineRows date) basis.snapshot.rates code
      (type.withRoom bedCount) =
        productAnchors date (baselineAt settings.baselineRows date) basis.snapshot.rates code type := by
    rw [productAnchors, hAnchors, productAnchors]
    simp only [ManagedRoomType.withRoom, List.reverse_append, List.find?_append, hFind, Option.none_or]
  rw [catalogPrice_eq, catalogPrice_eq, hOld, hAfter, hRates, findSome?_replace hPrices]

theorem CatalogBasis.RatePublished.keeps_price {basis : CatalogBasis} {rate : RoomRateChange} {after : RoomCatalogSnapshot}
    (h : RatePublished basis rate after)
    (hOutside : date < rate.effectiveFrom ∨
      ∀ type ∈ basis.snapshot.types, type.code = rate.typeCode → ∀ product ∈ type.products, product.code ≠ code) :
    catalogPrice settings after.types after.rates date code =
      catalogPrice settings basis.snapshot.types basis.snapshot.rates date code := by
  rw [catalogPrice_eq, catalogPrice_eq, h.types, h.rates]
  congr 1
  refine findSome?_congr fun type hType => ?_
  by_cases hTouched : type.code = rate.typeCode ∧ rate.effectiveFrom ≤ date
  · obtain ⟨hCode, hDate⟩ := hTouched
    have hProducts := hOutside.resolve_left (by omega) type (List.mem_reverse.mp hType) hCode
    have hFind : (type.products.reverse.find? fun product => product.code = code) = none :=
      List.find?_eq_none.mpr fun product hProduct => by simpa using hProducts product (List.mem_reverse.mp hProduct)
    simp only [productAnchors, hFind, Option.map_none]
    cases typeAnchors date (baselineAt settings.baselineRows date) (basis.snapshot.rates ++ [rate]) type <;>
      cases typeAnchors date (baselineAt settings.baselineRows date) basis.snapshot.rates type <;> rfl
  · have hRates : lastRate (basis.snapshot.rates ++ [rate]) type.code date = lastRate basis.snapshot.rates type.code date := by
      refine lastRate_congr ?_
      rw [List.filter_append, List.filter_singleton]
      have hRate : ¬ (rate.typeCode = type.code ∧ rate.effectiveFrom ≤ date) := fun hBoth =>
        hTouched ⟨hBoth.1.symm, hBoth.2⟩
      simp [hRate]
    simp only [productAnchors, typeAnchors, hRates]

theorem CatalogBasis.RatePublished.priced {basis : CatalogBasis} {rate : RoomRateChange} {after : RoomCatalogSnapshot}
    (h : RatePublished basis rate after)
    (hPriced : (catalogPrice settings basis.snapshot.types basis.snapshot.rates date code).isSome) :
    (catalogPrice settings after.types after.rates date code).isSome := by
  rw [catalogPrice_isSome, h.types, h.rates]
  refine (catalogPrice_isSome.mp hPriced).imp_left ?_
  rintro ⟨type, hType, hSome⟩
  obtain ⟨hAnchors, hProduct⟩ := productAnchors_isSome.mp hSome
  refine ⟨type, hType, productAnchors_isSome.mpr ⟨typeAnchors_isSome.mpr ?_, hProduct⟩⟩
  refine (typeAnchors_isSome.mp hAnchors).imp_left fun hRate => ?_
  obtain ⟨old, hOld, hCode, hDate⟩ := lastRate_isSome.mp hRate
  exact lastRate_isSome.mpr ⟨old, List.mem_append_left _ hOld, hCode, hDate⟩

end GreenPms
