import GreenPms.Catalog.Prices

/-! # The published price heads

A head is rebuilt for every date on which a baseline or a rate starts. Between two of them the price at
an arrival date stays, as long as no baseline runs out without a successor, so the latest head is right
for every later date.
-/

namespace GreenPms

open Checked TransitionSystem CatalogBasis

namespace CatalogTables

variable (t : CatalogTables) (settings : CatalogSettings)

def referencePrice (date : Nat) (code : Label) : Option RoomRateAnchors :=
  catalogPrice settings (t.snapshot settings).types (t.snapshot settings).rates date code

def selectedPolicy (date : Nat) : Option CatalogPolicy :=
  (t.resolveCatalogPolicyId date).bind fun id => t.policies.find? (·.id = id)

def headDates : List Nat := policyDates settings.baselineRows (t.snapshot settings).rates

/-- The names that an action makes up are in no use yet: no rate has the code of an added type, no
baseline prices a product that is made up, and no type has the product of a placed room. -/
def NewNames (ctx : CatalogContext) (input : RoomCatalogInput) : Prop :=
  ∀ selectedType selectedRoom, (t.catalogBasis settings).selectType input = .ok selectedType →
    (t.catalogBasis settings).selectRoom input = .ok selectedRoom →
    (∀ typeCode ∈ newTypeCode ctx input selectedType, ∀ rate ∈ (t.snapshot settings).rates, rate.typeCode ≠ typeCode) ∧
    ∀ product ∈ newProducts ctx (t.catalogBasis settings) input selectedType selectedRoom,
      Unpriced settings product.code ∧ (input.action ≠ .saveType →
        ∀ type ∈ (t.snapshot settings).types, ∀ used ∈ type.products, used.code ≠ product.code)

end CatalogTables

def CatalogStep.NewNames (settings : CatalogSettings) (t : CatalogTables) : CatalogStep → Prop
  | .manage ctx input => t.NewNames settings ctx input
  | .createClaim .. | .releaseClaim _ => True

structure HeadsCurrent (settings : CatalogSettings) (t : CatalogTables) : Prop where
  unused : UnusedTypesUnpriced settings t.units (t.snapshot settings).types
  dated : ∀ head ∈ t.heads, head.effectiveFrom ∈ t.headDates settings
  priced : ∀ head ∈ t.heads, ∃ policy, t.policies.find? (·.id = head.policyId) = some policy ∧ policy.anchors ≠ [] ∧
    ∀ code, policy.anchors.lookup code = t.referencePrice settings head.effectiveFrom code
  complete : t.heads ≠ [] → ∀ date ∈ t.headDates settings, (∃ code, (t.referencePrice settings date code).isSome) →
    ∃ head ∈ t.heads, head.effectiveFrom = date

section Units

variable {settings : CatalogSettings} {ctx : CatalogContext} {t u : CatalogTables} {effect : RoomCatalogEffect}

theorem mem_inventoryRows {unit : CatalogUnit} : unit ∈ t.inventoryRows ↔ unit ∈ t.units := List.mem_insertionSort _

theorem mem_currentRooms {unit : CatalogUnit} :
    unit ∈ t.currentRooms ↔ unit ∈ t.units ∧ unit.kind = .room ∧ t.isCurrent unit.id = true := by
  rw [CatalogTables.currentRooms, List.mem_filter, mem_inventoryRows]
  simp

theorem derivedTypes_named {rows rooms : List CatalogUnit} {type : ManagedRoomType}
    (h : type ∈ derivedTypes settings rows rooms) : ∃ room ∈ rooms, room.roomTypeCode = some type.code := by
  rw [derivedTypes, List.mem_insertionSort] at h
  revert h type
  refine List.foldlRecOn (motive := fun types : List ManagedRoomType =>
    ∀ {type}, type ∈ types → ∃ room ∈ rooms, room.roomTypeCode = some type.code) rooms _ (fun h => by cases h) ?_
  intro types hTypes room hRoom type h
  dsimp only at h
  split at h
  case isTrue => exact hTypes h
  case isFalse hNew =>
    obtain h | h := List.mem_append.mp h
    · exact hTypes h
    · obtain rfl := List.mem_singleton.mp h
      refine ⟨room, hRoom, ?_⟩
      cases hCode : room.roomTypeCode with
      | none => simp [hCode] at hNew
      | some code => rfl

theorem CatalogTables.Carried.keeps_types (h : Carried settings ctx t effect u) {unit : CatalogUnit} (hUnit : unit ∈ t.units) :
    ∃ kept ∈ u.units, kept.roomTypeCode = unit.roomTypeCode := by
  refine ⟨if unit.id ∈ effect.retireUnitIds then { unit with active := false } else unit, ?_, by split <;> rfl⟩
  rw [h.units]
  exact List.mem_append_left _ (List.mem_map.mpr ⟨unit, hUnit, rfl⟩)

theorem CatalogTables.Carried.snapshot_types (h : Carried settings ctx t effect u) :
    (u.snapshot settings).types = effect.after.types := by
  rw [CatalogTables.snapshot, h.stored]
  rfl

theorem CatalogTables.Carried.snapshot_rates (h : Carried settings ctx t effect u) :
    (u.snapshot settings).rates = effect.after.rates := by
  rw [CatalogTables.snapshot, h.stored]
  rfl

theorem manage_prepared {input : RoomCatalogInput} (h : t.manageRoomCatalog settings ctx input = .ok u) :
    ∃ selectedType selectedRoom effect, (t.catalogBasis settings).selectType input = .ok selectedType ∧
      (t.catalogBasis settings).selectRoom input = .ok selectedRoom ∧
      (t.catalogBasis settings).prepareAction ctx input selectedType selectedRoom = .ok effect ∧
      CatalogTables.Carried settings ctx t { effect with
        policies := if publishes input effect then
            preparePolicies ctx.policyId settings.baselineRows effect.after.types effect.after.rates
          else [] } u := by
  simp only [CatalogTables.manageRoomCatalog, buildRoomCatalogEffect, bind_eq_ok, require_eq_ok, pure_eq_ok] at h
  obtain ⟨_, ⟨-, -, selectedType, hType, selectedRoom, hRoom, effect, hEffect, rfl⟩, hApply⟩ := h
  exact ⟨selectedType, selectedRoom, effect, hType, hRoom, hEffect, CatalogTables.applyRoomCatalog_carried hApply⟩

theorem stored_snapshot {snapshot : RoomCatalogSnapshot} (h : t.stored = some snapshot) :
    snapshot.types = (t.snapshot settings).types ∧ snapshot.rates = (t.snapshot settings).rates := by
  constructor <;>
    · rw [CatalogTables.snapshot, h]
      rfl

end Units

section Publication

variable {settings : CatalogSettings} {base published : CatalogTables}

theorem publishPolicy_ok {policy : CatalogPolicy} (h : CatalogTables.publishPolicy settings base policy = .ok published) :
    base.policies.find? (·.id = policy.id) = none ∧ published = { base with
      policies := base.policies ++ [policy]
      heads := ⟨policy.effectiveFrom, policy.id⟩ :: base.heads.filter (·.effectiveFrom ≠ policy.effectiveFrom) } := by
  simp only [CatalogTables.publishPolicy, bind_eq_ok, require_eq_ok, pure_eq_ok] at h
  obtain ⟨-, ⟨hNew, -⟩, rfl⟩ := h
  exact ⟨List.find?_eq_none.mpr fun other hOther => by simpa using hNew other hOther, rfl⟩

/-- What a publication does: policies stay, each of its policies gets the head of its date, and the other
heads stay. -/
theorem published_heads {policies : List CatalogPolicy}
    (h : policies.foldlM (CatalogTables.publishPolicy settings) base = .ok published) :
    (∀ id policy, base.policies.find? (·.id = id) = some policy → published.policies.find? (·.id = id) = some policy) ∧
    (∀ head ∈ published.heads, (head ∈ base.heads ∧ ∀ policy ∈ policies, policy.effectiveFrom ≠ head.effectiveFrom) ∨
      ∃ policy ∈ policies, policy.effectiveFrom = head.effectiveFrom ∧
        published.policies.find? (·.id = head.policyId) = some policy) ∧
    ∀ date, ((∃ policy ∈ policies, policy.effectiveFrom = date) ∨ ∃ head ∈ base.heads, head.effectiveFrom = date) →
      ∃ head ∈ published.heads, head.effectiveFrom = date := by
  induction policies generalizing base with
  | nil =>
    obtain rfl : base = published := by simpa using h
    exact ⟨fun _ _ hFind => hFind, fun head hHead => .inl ⟨hHead, nofun⟩, fun date hDate => hDate.resolve_left nofun⟩
  | cons first policies ih =>
    simp only [List.foldlM_cons, bind_eq_ok] at h
    obtain ⟨next, hFirst, hRest⟩ := h
    obtain ⟨hNew, rfl⟩ := publishPolicy_ok hFirst
    obtain ⟨hKept, hHeads, hDates⟩ := ih hRest
    have hFind : (base.policies ++ [first]).find? (·.id = first.id) = some first := by
      simp [List.find?_append, hNew]
    refine ⟨fun id policy hOld => hKept id policy ?_, fun head hHead => ?_, fun date hDate => hDates date ?_⟩
    · rw [List.find?_append, hOld]
      rfl
    · obtain ⟨hOld, hOthers⟩ | ⟨policy, hPolicy, hSame⟩ := hHeads head hHead
      · obtain rfl | hOld := List.mem_cons.mp hOld
        · exact .inr ⟨first, List.mem_cons_self, rfl, hKept _ _ hFind⟩
        · obtain ⟨hBase, hApart⟩ := List.mem_filter.mp hOld
          have hFirst : head.effectiveFrom ≠ first.effectiveFrom := by simpa using hApart
          exact .inl ⟨hBase, List.forall_mem_cons.mpr ⟨hFirst.symm, hOthers⟩⟩
      · exact .inr ⟨policy, List.mem_cons_of_mem first hPolicy, hSame⟩
    · obtain ⟨policy, hPolicy, hDate⟩ | ⟨head, hHead, hDate⟩ := hDate
      · obtain rfl | hPolicy := List.mem_cons.mp hPolicy
        · exact .inr ⟨_, List.mem_cons_self, hDate⟩
        · exact .inl ⟨policy, hPolicy, hDate⟩
      · by_cases hFirst : head.effectiveFrom = first.effectiveFrom
        · exact .inr ⟨_, List.mem_cons_self, hFirst.symm.trans hDate⟩
        · exact .inr ⟨head, List.mem_cons_of_mem _ (List.mem_filter.mpr ⟨hHead, by simpa using hFirst⟩), hDate⟩

end Publication

section Steps

variable {settings : CatalogSettings} {t u : CatalogTables} {ctx : CatalogContext} {input : RoomCatalogInput}
  {selectedType : Option ManagedRoomType} {selectedRoom : Option ManagedRoom} {effect : RoomCatalogEffect}

theorem UnusedTypesUnpriced.of_products {units units' : List CatalogUnit} {types types' : List ManagedRoomType}
    (h : UnusedTypesUnpriced settings units types)
    (hUnits : ∀ unit ∈ units, ∃ kept ∈ units', kept.roomTypeCode = unit.roomTypeCode)
    (hTypes : ∀ type ∈ types', ∀ product ∈ type.products,
      Unpriced settings product.code ∨ ∃ old ∈ types, old.code = type.code ∧ product ∈ old.products) :
    UnusedTypesUnpriced settings units' types' := by
  intro type hType hUnnamed product hProduct
  obtain hUnpriced | ⟨old, hOld, hCode, hSame⟩ := hTypes type hType product hProduct
  · exact hUnpriced
  · refine h old hOld (fun unit hUnit hNamed => ?_) product hSame
    obtain ⟨kept, hKept, hKeptCode⟩ := hUnits unit hUnit
    exact hUnnamed kept hKept (by rw [hKeptCode, hNamed, hCode])

/-- Each product of a type after an action was one of the type's before, or no baseline prices it. -/
theorem CatalogBasis.Prepared.products (h : Prepared ctx (t.catalogBasis settings) input selectedType selectedRoom effect)
    (hMade : ∀ product ∈ newProducts ctx (t.catalogBasis settings) input selectedType selectedRoom,
      Unpriced settings product.code) :
    ∀ type ∈ effect.after.types, ∀ product ∈ type.products, Unpriced settings product.code ∨
      ∃ old ∈ (t.snapshot settings).types, old.code = type.code ∧ product ∈ old.products := by
  have hSame : ∀ type ∈ (t.catalogBasis settings).snapshot.types, ∀ product ∈ type.products,
      Unpriced settings product.code ∨ ∃ old ∈ (t.snapshot settings).types, old.code = type.code ∧ product ∈ old.products :=
    fun type hType product hProduct => .inr ⟨type, hType, rfl, hProduct⟩
  intro type hType
  cases h with
  | quiet hPublishes hChange =>
    cases hChange with
    | kept hTypes hRates => exact hSame type (hTypes ▸ hType)
    | added new hCode hProducts hTypes hRates =>
      rw [hTypes] at hType
      obtain hType | hType := List.mem_append.mp hType
      · exact hSame type hType
      · obtain rfl := List.mem_singleton.mp hType
        exact fun product hProduct => .inl (hMade product (hProducts product hProduct))
    | saved as bs old new hOld hNew hRates hCode hProducts =>
      rw [hNew] at hType
      obtain hType | rfl | hType : type ∈ as ∨ type = new ∨ type ∈ bs := by simpa using hType
      · exact hSame type (by rw [hOld]; simp [hType])
      · intro product hProduct
        exact .inr ⟨old, by change old ∈ (t.catalogBasis settings).snapshot.types; rw [hOld]; simp, hCode.symm,
          hProducts ▸ hProduct⟩
      · exact hSame type (by rw [hOld]; simp [hType])
    | switched as bs old new hOld hNew hRates hCode hUnits hUnrated hProducts =>
      rw [hNew] at hType
      obtain hType | rfl | hType : type ∈ as ∨ type = new ∨ type ∈ bs := by simpa using hType
      · exact hSame type (by rw [hOld]; simp [hType])
      · exact fun product hProduct => .inl (hMade product (hProducts product hProduct))
      · exact hSame type (by rw [hOld]; simp [hType])
    | deleted code hTypes hRates hUnits hUnrated => exact hSame type (List.mem_of_mem_filter (hTypes ▸ hType))
  | room hPublishes hAction placed bedCount hNewProducts hPlaced =>
    obtain ⟨⟨as, bs, hOld, hNew⟩, -⟩ := hPlaced
    rw [hNew] at hType
    obtain hType | rfl | hType : type ∈ as ∨ type = placed.withRoom bedCount ∨ type ∈ bs := by simpa using hType
    · exact hSame type (by rw [hOld]; simp [hType])
    · intro product hProduct
      obtain hProduct | hProduct := List.mem_append.mp hProduct
      · exact .inr ⟨placed, by change placed ∈ (t.catalogBasis settings).snapshot.types; rw [hOld]; simp, rfl, hProduct⟩
      · exact .inl (hMade product (hNewProducts ▸ hProduct))
    · exact hSame type (by rw [hOld]; simp [hType])
  | rate hPublishes hAction rate hRate hDate hPublished => exact hSame type (hPublished.types ▸ hType)

structure PricesMove (settings : CatalogSettings) (t u : CatalogTables) (input : RoomCatalogInput) (publishes : Bool) : Prop
    where
  dates : ∀ date ∈ t.headDates settings, date ∈ u.headDates settings
  priced : ∀ date code, (t.referencePrice settings date code).isSome → (u.referencePrice settings date code).isSome
  quiet : publishes = false → (t.headDates settings = u.headDates settings) ∧
    ∀ date code, u.referencePrice settings date code = t.referencePrice settings date code
  room : input.action = .saveRoom ∨ input.action = .setRoomActive → ∀ date code,
    (t.referencePrice settings date code).isSome → u.referencePrice settings date code = t.referencePrice settings date code
  rate : input.action = .publishRates → ∀ typeCode effectiveFrom, selected input.typeCode = some typeCode →
    input.effectiveFrom = some effectiveFrom → ∀ date code, (date < effectiveFrom ∨
      ∀ type ∈ (t.snapshot settings).types, type.code = typeCode → ∀ product ∈ type.products, product.code ≠ code) →
    u.referencePrice settings date code = t.referencePrice settings date code

theorem selectType_code {basis : CatalogBasis} {typeCode : Label} (h : basis.selectType input = .ok selectedType)
    (hCode : selected input.typeCode = some typeCode) : selectedType.map (·.code) = some typeCode := by
  rw [selectType, hCode] at h
  simp only [map_eq_ok, expect_eq_ok] at h
  obtain ⟨type, hFound, rfl⟩ := h
  have hType : type.code = typeCode := by simpa using List.find?_some hFound
  rw [Option.map_some, hType]

theorem prices_move (hUnused : UnusedTypesUnpriced settings t.units (t.snapshot settings).types)
    (hNew : t.NewNames settings ctx input) (hSelectType : (t.catalogBasis settings).selectType input = .ok selectedType)
    (hSelectRoom : (t.catalogBasis settings).selectRoom input = .ok selectedRoom)
    (h : Prepared ctx (t.catalogBasis settings) input selectedType selectedRoom effect)
    (hTypes : (u.snapshot settings).types = effect.after.types) (hRates : (u.snapshot settings).rates = effect.after.rates) :
    PricesMove settings t u input (publishes input effect) := by
  obtain ⟨hNewCode, hNewProducts⟩ := hNew selectedType selectedRoom hSelectType hSelectRoom
  have hAfter : ∀ date code, u.referencePrice settings date code =
      catalogPrice settings effect.after.types effect.after.rates date code := by
    intro date code
    rw [CatalogTables.referencePrice, hTypes, hRates]
  have hDates : u.headDates settings = policyDates settings.baselineRows effect.after.rates := by
    rw [CatalogTables.headDates, hRates]
  have hUnnamed : UnusedTypesUnpriced settings (t.catalogBasis settings).units (t.catalogBasis settings).snapshot.types :=
    hUnused.of_products (fun unit hUnit => ⟨unit, mem_inventoryRows.mpr hUnit, rfl⟩)
      fun type hType product hProduct => .inr ⟨type, hType, rfl, hProduct⟩
  cases h with
  | quiet hPublishes hChange =>
    have hSame : ∀ date code, u.referencePrice settings date code = t.referencePrice settings date code := by
      intro date code
      rw [hAfter]
      exact hChange.keeps_prices hUnnamed (fun product hProduct => (hNewProducts product hProduct).1) hNewCode
    have hKept : effect.after.rates = (t.snapshot settings).rates := by cases hChange <;> assumption
    have hHeads : t.headDates settings = u.headDates settings := by rw [hDates, hKept, CatalogTables.headDates]
    exact {
      dates := fun date hDate => hHeads ▸ hDate
      priced := fun date code hPriced => by rwa [hSame]
      quiet := fun _ => ⟨hHeads, hSame⟩
      room := fun _ date code _ => hSame date code
      rate := fun _ _ _ _ _ date code _ => hSame date code }
  | room hPublishes hAction type bedCount hMade hPlaced =>
    have hSame : ∀ date code, (t.referencePrice settings date code).isSome →
        u.referencePrice settings date code = t.referencePrice settings date code := by
      intro date code hPriced
      rw [hAfter]
      refine hPlaced.keeps_price (fun product hProduct => ?_) hPriced
      obtain ⟨hUnpriced, hUnused⟩ := hNewProducts product (hMade ▸ hProduct)
      exact ⟨hUnpriced, hUnused (by rcases hAction with h | h <;> simp [h])⟩
    have hHeads : t.headDates settings = u.headDates settings := by
      rw [hDates, hPlaced.rates]
      rfl
    exact {
      dates := fun date hDate => hHeads ▸ hDate
      priced := fun date code hPriced => by rwa [hSame date code hPriced]
      quiet := fun hQuiet => by rw [hPublishes] at hQuiet; cases hQuiet
      room := fun _ => hSame
      rate := fun hRate => by rcases hAction with h | h <;> rw [h] at hRate <;> cases hRate }
  | rate hPublishes hAction rate hRate hDate hPublished =>
    exact {
      dates := by
        intro date hDate
        rw [hDates, hPublished.rates, mem_policyDates]
        refine (mem_policyDates.mp hDate).imp_right fun ⟨old, hOld, hStart⟩ => ⟨old, List.mem_append_left _ hOld, hStart⟩
      priced := by
        intro date code hPriced
        rw [hAfter]
        exact hPublished.priced hPriced
      quiet := fun hQuiet => by rw [hPublishes] at hQuiet; cases hQuiet
      room := fun hRoom => by rcases hRoom with h | h <;> rw [h] at hAction <;> cases hAction
      rate := by
        intro _ typeCode effectiveFrom hTypeCode hFrom date code hOutside
        obtain rfl : rate.typeCode = typeCode :=
          Option.some.inj (hRate.symm.trans (selectType_code hSelectType hTypeCode))
        obtain rfl : rate.effectiveFrom = effectiveFrom := Option.some.inj (hDate.symm.trans hFrom)
        rw [hAfter]
        exact hPublished.keeps_price hOutside }

theorem HeadsCurrent.manage (h : HeadsCurrent settings t) (hNew : t.NewNames settings ctx input)
    (hStep : t.manageRoomCatalog settings ctx input = .ok u) :
    HeadsCurrent settings u ∧ ∃ publishes, PricesMove settings t u input publishes ∧
      ∀ head ∈ t.heads, ∃ kept ∈ u.heads, kept.effectiveFrom = head.effectiveFrom := by
  obtain ⟨selectedType, selectedRoom, effect, hType, hRoom, hEffect, hCarried⟩ := manage_prepared hStep
  have hPrepared := prepareAction_prepared hEffect hType fun snapshot hSnapshot => stored_snapshot hSnapshot
  have hTypes := hCarried.snapshot_types
  have hRates := hCarried.snapshot_rates
  dsimp only at hTypes hRates
  have hMove := prices_move h.unused hNew hType hRoom hPrepared hTypes hRates
  obtain ⟨base, published, hBasePolicies, hBaseHeads, hPublished, hPolicies, hHeads⟩ := hCarried.published
  obtain ⟨hFound, hEach, hDates⟩ := published_heads hPublished
  rw [hBasePolicies, ← hPolicies] at hFound
  rw [← hPolicies, ← hHeads, hBaseHeads] at hEach
  rw [← hHeads, hBaseHeads] at hDates
  have hUnused : UnusedTypesUnpriced settings u.units (u.snapshot settings).types := by
    refine h.unused.of_products (fun unit hUnit => hCarried.keeps_types hUnit) ?_
    rw [hTypes]
    exact hPrepared.products fun product hProduct => ((hNew selectedType selectedRoom hType hRoom).2 product hProduct).1
  refine ⟨?_, publishes input effect, hMove, fun head hHead => hDates _ (.inr ⟨head, hHead, rfl⟩)⟩
  cases hPublishes : publishes input effect with
  | false =>
    obtain ⟨hSameDates, hSame⟩ := hMove.quiet hPublishes
    simp only [hPublishes] at hEach hDates
    refine ⟨hUnused, fun head hHead => ?_, fun head hHead => ?_, fun hSome date hDate hPriced => ?_⟩
    · obtain ⟨hOld, -⟩ | ⟨policy, hPolicy, -⟩ := hEach head hHead
      · exact hSameDates ▸ h.dated head hOld
      · cases hPolicy
    · obtain ⟨hOld, -⟩ | ⟨policy, hPolicy, -⟩ := hEach head hHead
      · obtain ⟨policy, hPolicy, hNonempty, hAgrees⟩ := h.priced head hOld
        exact ⟨policy, hFound _ policy hPolicy, hNonempty, fun code => by rw [hAgrees, hSame]⟩
      · cases hPolicy
    · have hOld : t.heads ≠ [] := by
        obtain ⟨head, hHead⟩ := List.exists_mem_of_ne_nil u.heads hSome
        obtain ⟨hOld, -⟩ | ⟨policy, hPolicy, -⟩ := hEach head hHead
        · exact List.ne_nil_of_mem hOld
        · cases hPolicy
      obtain ⟨head, hHead, hHeadDate⟩ := h.complete hOld date (hSameDates ▸ hDate) (by simpa only [hSame] using hPriced)
      exact hDates date (.inr ⟨head, hHead, hHeadDate⟩)
  | true =>
    simp only [hPublishes, if_true] at hEach hDates
    have hComplete : ∀ date ∈ u.headDates settings, (∃ code, (u.referencePrice settings date code).isSome) →
        ∃ policy ∈ preparePolicies ctx.policyId settings.baselineRows effect.after.types effect.after.rates,
          policy.effectiveFrom = date := by
      intro date hDate hPriced
      rw [CatalogTables.headDates, hRates] at hDate
      refine preparePolicies_complete ctx.policyId hDate (catalogAnchorsAt_ne_nil _ |>.mpr ?_)
      simpa only [CatalogTables.referencePrice, catalogPrice, hTypes, hRates] using hPriced
    have hRebuilt : ∀ head ∈ u.heads, ∃ policy ∈ preparePolicies ctx.policyId settings.baselineRows effect.after.types
        effect.after.rates, policy.effectiveFrom = head.effectiveFrom ∧
          u.policies.find? (·.id = head.policyId) = some policy := by
      intro head hHead
      obtain ⟨hOld, hApart⟩ | hNewHead := hEach head hHead
      · obtain ⟨policy, -, hNonempty, hAgrees⟩ := h.priced head hOld
        obtain ⟨⟨code, anchors⟩, rest, hTable⟩ := List.exists_cons_of_ne_nil hNonempty
        have hPriced : (t.referencePrice settings head.effectiveFrom code).isSome := by
          rw [← hAgrees, hTable, List.lookup_cons_self]
          rfl
        obtain ⟨fresh, hFresh, hSameDate⟩ := hComplete _ (hMove.dates _ (h.dated head hOld))
          ⟨code, hMove.priced _ _ hPriced⟩
        exact absurd hSameDate (hApart fresh hFresh)
      · exact hNewHead
    refine ⟨hUnused, fun head hHead => ?_, fun head hHead => ?_, fun _ date hDate hPriced =>
      hDates date (.inl (hComplete date hDate hPriced))⟩
    · obtain ⟨policy, hPolicy, hSameDate, -⟩ := hRebuilt head hHead
      rw [CatalogTables.headDates, hRates, ← hSameDate]
      exact (mem_preparePolicies hPolicy).1
    · obtain ⟨policy, hPolicy, hSameDate, hFind⟩ := hRebuilt head hHead
      obtain ⟨-, hNonempty, hAnchors⟩ := mem_preparePolicies hPolicy
      refine ⟨policy, hFind, hNonempty, fun code => ?_⟩
      rw [CatalogTables.referencePrice, catalogPrice, hTypes, hRates, ← hSameDate, hAnchors]

end Steps

section Reached

variable {settings : CatalogSettings} {t : CatalogTables}

theorem HeadsCurrent.initial (units : List CatalogUnit) (claims : List RoomClaim) :
    HeadsCurrent settings (.unmanaged units claims) where
  unused := by
    intro type hType hUnnamed
    obtain ⟨room, hRoom, hNamed⟩ := derivedTypes_named hType
    exact absurd hNamed (hUnnamed room (mem_currentRooms.mp hRoom).1)
  dated := nofun
  priced := nofun
  complete := fun h => absurd rfl h

theorem heads_current (h : Reachable ((catalogSystem settings).restrict (CatalogStep.NewNames settings)) t) :
    HeadsCurrent settings t := by
  refine h.invariant ?_ ?_
  · rintro _ ⟨units, claims, rfl⟩
    exact .initial units claims
  · rintro a e b - ha ⟨hNew, hStep⟩
    cases e with
    | manage ctx input => exact (ha.manage hNew hStep).1
    | createClaim claimId unitId =>
      have hClaim : a.createClaim claimId unitId = .ok b := hStep
      simp only [CatalogTables.createClaim, bind_eq_ok, expect_eq_ok, require_eq_ok, pure_eq_ok] at hClaim
      obtain ⟨unit, -, -, -, rfl⟩ := hClaim
      exact ⟨ha.unused, ha.dated, ha.priced, ha.complete⟩
    | releaseClaim claimId =>
      have hClaim : .ok (a.releaseClaim claimId) = Except.ok (ε := Thrown) b := hStep
      obtain rfl := Except.ok.inj hClaim
      exact ⟨ha.unused, ha.dated, ha.priced, ha.complete⟩

theorem HeadsCurrent.price_stays (h : HeadsCurrent settings t) (hBaselines : BaselinesHandOver settings)
    {head : RoomCatalogHead} (hHead : head ∈ t.heads) {date : Nat}
    (hLatest : ∀ other ∈ t.heads, other.effectiveFrom ≤ date → other.effectiveFrom ≤ head.effectiveFrom)
    (hDate : head.effectiveFrom ≤ date) (code : Label) :
    t.referencePrice settings date code = t.referencePrice settings head.effectiveFrom code := by
  obtain ⟨policy, -, hNonempty, hAgrees⟩ := h.priced head hHead
  obtain ⟨⟨first, anchors⟩, rest, hTable⟩ := List.exists_cons_of_ne_nil hNonempty
  have hFirst : (t.referencePrice settings head.effectiveFrom first).isSome := by
    rw [← hAgrees, hTable, List.lookup_cons_self]
    rfl
  suffices hStays : ∀ nights, head.effectiveFrom + nights ≤ date → ∀ code,
      t.referencePrice settings (head.effectiveFrom + nights) code = t.referencePrice settings head.effectiveFrom code by
    have := hStays (date - head.effectiveFrom) (by omega) code
    rwa [Nat.add_sub_cancel' hDate] at this
  intro nights
  induction nights with
  | zero => exact fun _ _ => rfl
  | succ nights ih =>
    intro hBound code
    have hSame := ih (by omega)
    have hQuiet : head.effectiveFrom + nights + 1 ∉ t.headDates settings := by
      intro hStarts
      have hNow : (t.referencePrice settings (head.effectiveFrom + nights) first).isSome := by rwa [hSame]
      obtain ⟨other, hOther, hOtherDate⟩ := h.complete (List.ne_nil_of_mem hHead) _ hStarts (priced_succ hBaselines hNow)
      have := hLatest other hOther (by omega)
      omega
    rw [← hSame code, ← Nat.add_assoc]
    exact catalogPrice_succ hBaselines hQuiet

theorem resolved_head {date : Nat} (h : ∃ head ∈ t.heads, head.effectiveFrom ≤ date) :
    ∃ head ∈ t.heads, head.effectiveFrom ≤ date ∧ t.resolveCatalogPolicyId date = some head.policyId ∧
      ∀ other ∈ t.heads, other.effectiveFrom ≤ date → other.effectiveFrom ≤ head.effectiveFrom := by
  obtain ⟨some_, hSome, hSomeDate⟩ := h
  cases hLatest : (t.heads.filter (·.effectiveFrom ≤ date)).argmax (·.effectiveFrom) with
  | none =>
    have hMem : some_ ∈ t.heads.filter (·.effectiveFrom ≤ date) := List.mem_filter.mpr ⟨hSome, by simpa using hSomeDate⟩
    rw [List.argmax_eq_none.mp hLatest] at hMem
    cases hMem
  | some head =>
    obtain ⟨hHead, hDate⟩ := List.mem_filter.mp (List.argmax_mem hLatest)
    refine ⟨head, hHead, by simpa using hDate, by rw [CatalogTables.resolveCatalogPolicyId, hLatest]; rfl, ?_⟩
    intro other hOther hOtherDate
    exact List.le_of_mem_argmax (List.mem_filter.mpr ⟨hOther, by simpa using hOtherDate⟩) hLatest

theorem HeadsCurrent.selected (h : HeadsCurrent settings t) (hBaselines : BaselinesHandOver settings) {date : Nat}
    (hHead : ∃ head ∈ t.heads, head.effectiveFrom ≤ date) : ∃ policy, t.selectedPolicy date = some policy ∧
      ∀ code, policy.anchors.lookup code = t.referencePrice settings date code := by
  obtain ⟨head, hMem, hDate, hResolved, hLatest⟩ := resolved_head hHead
  obtain ⟨policy, hPolicy, -, hAgrees⟩ := h.priced head hMem
  refine ⟨policy, by rw [CatalogTables.selectedPolicy, hResolved]; exact hPolicy, fun code => ?_⟩
  rw [hAgrees, h.price_stays hBaselines hMem hLatest hDate]

theorem head_of_selected {date : Nat} {policy : CatalogPolicy} (h : t.selectedPolicy date = some policy) :
    ∃ head ∈ t.heads, head.effectiveFrom ≤ date := by
  rw [CatalogTables.selectedPolicy, CatalogTables.resolveCatalogPolicyId] at h
  cases hLatest : (t.heads.filter (·.effectiveFrom ≤ date)).argmax (·.effectiveFrom) with
  | none =>
    rw [hLatest] at h
    cases h
  | some head =>
    obtain ⟨hHead, hDate⟩ := List.mem_filter.mp (List.argmax_mem hLatest)
    exact ⟨head, hHead, by simpa using hDate⟩

end Reached

/-- A product costs what it cost, in the catalog and in the policy that an arrival date selects. -/
def KeepsPrice (settings : CatalogSettings) (t u : CatalogTables) (date : Nat) (code : Label) : Prop :=
  u.referencePrice settings date code = t.referencePrice settings date code ∧
    ∀ before, t.selectedPolicy date = some before → ∃ after, u.selectedPolicy date = some after ∧
      after.anchors.lookup code = before.anchors.lookup code

/-- The policy of every arrival date from the first head on has the prices of the catalog. A rate changes
nothing before its date or outside its type, and a room nothing that has a price. -/
theorem price_heads_agree {settings : CatalogSettings} (hBaselines : BaselinesHandOver settings) {t : CatalogTables}
    (h : Reachable ((catalogSystem settings).restrict (CatalogStep.NewNames settings)) t) :
    (∀ date, (∃ head ∈ t.heads, head.effectiveFrom ≤ date) → ∃ policy, t.selectedPolicy date = some policy ∧
      ∀ code, policy.anchors.lookup code = t.referencePrice settings date code) ∧
    ∀ ctx input u, t.NewNames settings ctx input → t.manageRoomCatalog settings ctx input = .ok u →
      (input.action = .publishRates → ∀ typeCode effectiveFrom, selected input.typeCode = some typeCode →
        input.effectiveFrom = some effectiveFrom → ∀ date code, (date < effectiveFrom ∨
          ∀ type ∈ (t.snapshot settings).types, type.code = typeCode → ∀ product ∈ type.products, product.code ≠ code) →
        KeepsPrice settings t u date code) ∧
      (input.action = .saveRoom ∨ input.action = .setRoomActive → ∀ date code,
        (t.referencePrice settings date code).isSome → KeepsPrice settings t u date code) := by
  have hCurrent := heads_current h
  refine ⟨fun date hHead => hCurrent.selected hBaselines hHead, fun ctx input u hNew hStep => ?_⟩
  obtain ⟨hNext, publishes, hMove, hKept⟩ := hCurrent.manage hNew hStep
  have hKeeps : ∀ date code, u.referencePrice settings date code = t.referencePrice settings date code →
      KeepsPrice settings t u date code := by
    intro date code hSame
    refine ⟨hSame, fun before hBefore => ?_⟩
    obtain ⟨head, hHead, hDate⟩ := head_of_selected hBefore
    obtain ⟨kept, hKeptHead, hKeptDate⟩ := hKept head hHead
    obtain ⟨found, hFound, hBeforePrices⟩ := hCurrent.selected hBaselines ⟨head, hHead, hDate⟩
    obtain rfl : before = found := Option.some.inj (hBefore.symm.trans hFound)
    obtain ⟨after, hAfter, hAfterPrices⟩ := hNext.selected hBaselines ⟨kept, hKeptHead, hKeptDate.trans_le hDate⟩
    exact ⟨after, hAfter, by rw [hAfterPrices, hBeforePrices, hSame]⟩
  constructor
  · intro hAction typeCode effectiveFrom hType hFrom date code hOutside
    exact hKeeps date code (hMove.rate hAction typeCode effectiveFrom hType hFrom date code hOutside)
  · intro hAction date code hPriced
    exact hKeeps date code (hMove.room hAction date code hPriced)

section Samples

def sampleBaseline (effectiveUntil : Option Nat) (h : ∀ until_ ∈ effectiveUntil, 1 < until_) : DurationPolicy where
  id := ['p']
  version := 1
  effectiveFrom := 1
  effectiveUntil
  anchors := [(['a', 'p'], ⟨100, 600, 1100, 2000⟩), (['b', 'p'], ⟨100, 600, 1100, 2000⟩)]
  interval := h
  priced := List.cons_ne_nil _ _

def expiringSettings : CatalogSettings := ⟨[sampleBaseline (some 10) (by decide)], fun code _ => code⟩

def openSettings : CatalogSettings := ⟨[sampleBaseline none nofun], fun code _ => code⟩

def sampleRoom (id typeCode productCode : Label) : CatalogUnit :=
  ⟨id, .room, none, id, id, true, some ['A'], some typeCode, some productCode, some .independent, some 1, 2⟩

def sampleInventory : CatalogTables :=
  .unmanaged [sampleRoom ['1'] ['a'] ['a', 'p'], sampleRoom ['2'] ['b'] ['b', 'p']] []

def sampleContext : CatalogContext where
  today := 1
  held _ := false
  booked _ := false
  maintained _ := false
  internalUse _ := false
  liveMembership _ := false
  membershipProduct _ := false
  suffix := ['x']
  policyId date _ := 'q' :: Nat.toDigits 10 date

def blankInput (action : RoomCatalogAction) : RoomCatalogInput :=
  ⟨0, action, none, none, none, none, none, none, none, none, none, none, none, none, none, none, none⟩

/-- A rate of the second type from day 5 on. -/
def sampleRate : RoomCatalogInput :=
  { blankInput .publishRates with
    typeCode := some ['b']
    effectiveFrom := some 5
    anchors := some ⟨7, 8, 9, 10⟩ }

def rated (settings : CatalogSettings) : CatalogTables :=
  match sampleInventory.manageRoomCatalog settings sampleContext sampleRate with
  | .ok t => t
  | .error _ => sampleInventory

theorem rated_expiring : sampleInventory.manageRoomCatalog expiringSettings sampleContext sampleRate = .ok (rated expiringSettings) := by
  decide +kernel

theorem rated_open : sampleInventory.manageRoomCatalog openSettings sampleContext sampleRate = .ok (rated openSettings) := by
  decide +kernel

theorem openSettings_hand_over : BaselinesHandOver openSettings := by
  have hTable : ∀ date, 1 ≤ date → baselineAt openSettings.baselineRows date = (sampleBaseline none nofun).anchors := by
    intro date hDate
    have hForce : (sampleBaseline none nofun).inForce date = true := by
      simpa [DurationPolicy.inForce, sampleBaseline] using hDate
    have hRows : openSettings.baselineRows = [sampleBaseline none nofun] := rfl
    simp only [baselineAt, hRows, List.filter_singleton, hForce, cond_true]
    rfl
  intro date hStart
  have hLater : 1 ≤ date := by
    have := hStart (sampleBaseline none nofun) (List.mem_singleton.mpr rfl)
    simp only [sampleBaseline] at this
    omega
  rw [hTable date hLater, hTable (date + 1) (by omega)]

theorem sampleRate_new (t : CatalogTables) : t.NewNames openSettings sampleContext sampleRate := by
  intro selectedType selectedRoom _ _
  constructor
  · intro typeCode hCode
    cases hCode
  · intro product hProduct
    cases hProduct

end Samples

theorem price_heads_agree_sample :
    (∃ policy, (rated openSettings).selectedPolicy 12 = some policy ∧
      ∀ code, policy.anchors.lookup code = (rated openSettings).referencePrice openSettings 12 code) ∧
    KeepsPrice openSettings sampleInventory (rated openSettings) 12 ['a', 'p'] := by
  have hStart : Reachable ((catalogSystem openSettings).restrict (CatalogStep.NewNames openSettings)) sampleInventory :=
    .of_init ⟨_, _, rfl⟩
  have hRated : Reachable ((catalogSystem openSettings).restrict (CatalogStep.NewNames openSettings)) (rated openSettings) :=
    hStart.step (e := .manage sampleContext sampleRate) ⟨sampleRate_new sampleInventory, rated_open⟩
  refine ⟨(price_heads_agree openSettings_hand_over hRated).1 12 (by decide +kernel), ?_⟩
  exact ((price_heads_agree openSettings_hand_over hStart).2 sampleContext sampleRate _ (sampleRate_new sampleInventory)
    rated_open).1 rfl ['b'] 5 rfl rfl 12 ['a', 'p'] (.inr (by decide +kernel))

/-- After the baseline has run out the policy of day 5 still sells the first type. -/
theorem expired_baseline_still_sells : ¬ ∀ (settings : CatalogSettings) (t : CatalogTables),
    Reachable (catalogSystem settings) t → ∀ date, (∃ head ∈ t.heads, head.effectiveFrom ≤ date) →
      ∃ policy, t.selectedPolicy date = some policy ∧
        ∀ code, policy.anchors.lookup code = t.referencePrice settings date code := by
  intro h
  have hReachable : Reachable (catalogSystem expiringSettings) (rated expiringSettings) :=
    (Reachable.of_init (M := catalogSystem expiringSettings) ⟨_, _, rfl⟩).step
      (e := .manage sampleContext sampleRate) rated_expiring
  obtain ⟨policy, hPolicy, hPrices⟩ := h expiringSettings _ hReachable 12 (by decide +kernel)
  have hSold : ((rated expiringSettings).selectedPolicy 12).map (·.anchors.lookup ['a', 'p']) =
      some (some ⟨100, 600, 1100, 2000⟩) := by decide +kernel
  have hReference : (rated expiringSettings).referencePrice expiringSettings 12 ['a', 'p'] = none := by decide +kernel
  rw [hPolicy, Option.map_some, hPrices, hReference] at hSold
  cases hSold

end GreenPms
