import Mathlib.Data.List.Nodup
import GreenPms.Library.LockedStore
import GreenPms.Order.Timeline

/-! # Inventory tables

Claims, the pointer rows of rooms and beds for each service date, and the part of an order that
its claims depend on. Claim rows are kept after their release. A write touches the room day it
changes, the claim row by its primary key, and the order that a segment belongs to.
-/

namespace GreenPms

inductive InventoryUnitKind where
  | room | bed
  deriving DecidableEq, Repr

structure UnitCatalog where
  kind : Nat → InventoryUnitKind
  parentRoomId : Nat → Nat
  beds : List Nat
  mem_beds : ∀ b, b ∈ beds ↔ kind b = .bed
  parentRoom_kind : ∀ b, kind b = .bed → kind (parentRoomId b) = .room

namespace UnitCatalog

variable (cat : UnitCatalog)

def roomId (unitId : Nat) : Nat :=
  match cat.kind unitId with
  | .room => unitId
  | .bed => cat.parentRoomId unitId

theorem roomId_of_room {u : Nat} (h : cat.kind u = .room) : cat.roomId u = u := by
  rw [roomId, h]

theorem kind_roomId (u : Nat) : cat.kind (cat.roomId u) = .room := by
  unfold roomId
  cases h : cat.kind u with
  | room => exact h
  | bed => exact cat.parentRoom_kind u h

end UnitCatalog

inductive ClaimSourceType where
  | orderSegment | maintenance | internalUse
  deriving DecidableEq, Repr

inductive ClaimSource where
  | segment (orderId segmentId : Nat)
  | maintenance (lockId : Nat)
  | internalUse (blockId : Nat)
  deriving DecidableEq, Repr

def ClaimSource.type : ClaimSource → ClaimSourceType
  | .segment _ _ => .orderSegment
  | .maintenance _ => .maintenance
  | .internalUse _ => .internalUse

def ClaimSource.orderId? : ClaimSource → Option Nat
  | .segment orderId _ => some orderId
  | .maintenance _ | .internalUse _ => none

structure Claim where
  id : Nat
  roomId : Nat
  unitId : Nat
  serviceDate : Nat
  source : ClaimSource
  active : Bool
  deriving DecidableEq, Repr

/-- `occupying` says that the order is reserved or checked in. -/
structure OrderStay where
  arrivalDate : Nat
  departureDate : Nat
  occupying : Bool
  segments : List Nat
  deriving DecidableEq, Repr

def OrderStay.sources (orderId : Nat) (row : OrderStay) : List ClaimSource :=
  row.segments.map (.segment orderId)

structure InventoryTables where
  claims : List Claim
  wholeClaimId : Nat → Nat → Option (Option Nat)
  bedClaimId : Nat → Nat → Option (Option Nat)
  orders : Nat → Option OrderStay

inductive InventoryWrite where
  | insertRoomDay (roomId serviceDate : Nat)
  | insertBedDay (bedId serviceDate : Nat)
  | setWhole (roomId serviceDate : Nat) (claimId : Option Nat)
  | setBed (bedId serviceDate : Nat) (claimId : Option Nat)
  | insertClaim (claim : Claim)
  | deactivate (claim : Claim)
  | putOrder (orderId : Nat) (row : OrderStay)
  deriving DecidableEq, Repr

inductive InventoryResource where
  | roomDay (roomId serviceDate : Nat)
  | claim (claimId : Nat)
  | order (orderId : Nat)
  deriving DecidableEq, Repr

def Claim.released (claim x : Claim) : Claim := if x = claim then { x with active := false } else x

/-- `ON CONFLICT DO NOTHING` keeps a row that exists; an update of a missing row changes nothing. -/
def setRow (f : Nat → Nat → Option (Option Nat)) (a b : Nat)
    (g : Option (Option Nat) → Option (Option Nat)) : Nat → Nat → Option (Option Nat) :=
  fun x y => if x = a ∧ y = b then g (f x y) else f x y

def InventoryWrite.apply (t : InventoryTables) : InventoryWrite → InventoryTables
  | .insertRoomDay roomId date =>
      { t with wholeClaimId := setRow t.wholeClaimId roomId date fun row => row.or (some none) }
  | .insertBedDay bedId date =>
      { t with bedClaimId := setRow t.bedClaimId bedId date fun row => row.or (some none) }
  | .setWhole roomId date id =>
      { t with wholeClaimId := setRow t.wholeClaimId roomId date (Option.map fun _ => id) }
  | .setBed bedId date id =>
      { t with bedClaimId := setRow t.bedClaimId bedId date (Option.map fun _ => id) }
  | .insertClaim claim => { t with claims := t.claims ++ [claim] }
  | .deactivate claim => { t with claims := t.claims.map claim.released }
  | .putOrder orderId row => { t with orders := Function.update t.orders orderId (some row) }

def Claim.touches (claim : Claim) : List InventoryResource :=
  [.roomDay claim.roomId claim.serviceDate, .claim claim.id] ++
    claim.source.orderId?.toList.map .order

def InventoryWrite.touches (cat : UnitCatalog) : InventoryWrite → List InventoryResource
  | .insertRoomDay roomId date | .setWhole roomId date _ => [.roomDay roomId date]
  | .insertBedDay bedId date | .setBed bedId date _ => [.roomDay (cat.roomId bedId) date]
  | .insertClaim claim | .deactivate claim => claim.touches
  | .putOrder orderId _ => [.order orderId]

structure RoomDayView where
  claims : List Claim
  whole : Option (Option Nat)
  beds : Nat → Option (Option Nat)

def InventoryResource.View : InventoryResource → Type
  | .roomDay _ _ => RoomDayView
  | .claim _ => List Claim
  | .order _ => Option OrderStay × List Claim

def InventoryResource.sees : InventoryResource → Claim → Bool
  | .roomDay roomId date, c => c.roomId = roomId ∧ c.serviceDate = date
  | .claim claimId, c => c.id = claimId
  | .order orderId, c => c.source.orderId? = some orderId

def roomDayView (cat : UnitCatalog) (roomId date : Nat) (t : InventoryTables) : RoomDayView where
  claims := t.claims.filter (InventoryResource.sees (.roomDay roomId date))
  whole := t.wholeClaimId roomId date
  beds b := if cat.roomId b = roomId then t.bedClaimId b date else none

def InventoryResource.observe (cat : UnitCatalog) :
    (r : InventoryResource) → InventoryTables → r.View
  | .roomDay roomId date, t => roomDayView cat roomId date t
  | .claim claimId, t => t.claims.filter (sees (.claim claimId))
  | .order orderId, t => (t.orders orderId, t.claims.filter (sees (.order orderId)))

/-! ## Locality of the writes -/

theorem Claim.released_key (claim x : Claim) :
    (claim.released x).id = x.id ∧ (claim.released x).roomId = x.roomId ∧
      (claim.released x).unitId = x.unitId ∧ (claim.released x).serviceDate = x.serviceDate ∧
      (claim.released x).source = x.source := by
  unfold released
  split <;> simp

def Claim.Keyed (P : Claim → Bool) : Prop := ∀ claim x : Claim, P (claim.released x) = P x

theorem filter_insertClaim {P : Claim → Bool} {claims : List Claim} {claim : Claim}
    (h : P claim = false) : (claims ++ [claim]).filter P = claims.filter P := by
  simp [h]

theorem filter_map_released {P : Claim → Bool} (hKey : Claim.Keyed P) (claims : List Claim)
    (claim : Claim) :
    (claims.map claim.released).filter P = (claims.filter P).map claim.released := by
  induction claims with
  | nil => rfl
  | cons x rest ih => simp only [List.map_cons, List.filter_cons, hKey claim x, ih]; split <;> simp

theorem map_released_of_not_mem {claims : List Claim} {claim : Claim} (h : claim ∉ claims) :
    claims.map claim.released = claims := by
  refine (List.map_congr_left fun x hx => ?_).trans (List.map_id _)
  exact if_neg fun hEq : x = claim => h (hEq ▸ hx)

theorem filter_deactivate {P : Claim → Bool} (hKey : Claim.Keyed P) {claims : List Claim} {claim : Claim}
    (h : P claim = false) : (claims.map claim.released).filter P = claims.filter P := by
  rw [filter_map_released hKey]
  refine map_released_of_not_mem fun hMem => ?_
  rw [(List.mem_filter.mp hMem).2] at h
  cases h

theorem InventoryResource.sees_keyed (r : InventoryResource) : Claim.Keyed r.sees := by
  intro claim x
  obtain ⟨hId, hRoom, -, hDate, hSource⟩ := claim.released_key x
  cases r <;> simp [sees, hId, hRoom, hDate, hSource]

theorem InventoryResource.sees_of_touches {r : InventoryResource} {claim : Claim}
    (h : r ∉ claim.touches) : r.sees claim = false := by
  cases r with
  | roomDay roomId date =>
    simp only [Claim.touches, List.mem_append, List.mem_cons, not_or, InventoryResource.roomDay.injEq] at h
    simp only [sees, decide_eq_false_iff_not]
    rintro ⟨rfl, rfl⟩
    exact h.1.1 ⟨rfl, rfl⟩
  | claim claimId =>
    simp only [Claim.touches, List.mem_append, List.mem_cons, not_or, InventoryResource.claim.injEq] at h
    simp only [sees, decide_eq_false_iff_not]
    rintro rfl
    exact h.1.2.1 rfl
  | order orderId =>
    simp only [Claim.touches, List.mem_append, List.mem_map, not_or] at h
    simp only [sees, decide_eq_false_iff_not]
    intro hOwner
    exact h.2 ⟨orderId, by simp [hOwner], rfl⟩

theorem setRow_of_ne {f : Nat → Nat → Option (Option Nat)} {a b x y : Nat}
    {g : Option (Option Nat) → Option (Option Nat)} (h : ¬ (x = a ∧ y = b)) : setRow f a b g x y = f x y :=
  if_neg h

theorem setRow_congr {f f' : Nat → Nat → Option (Option Nat)} {a b x y : Nat}
    {g : Option (Option Nat) → Option (Option Nat)} (h : f x y = f' x y) :
    setRow f a b g x y = setRow f' a b g x y := by
  simp only [setRow, h]

theorem InventoryWrite.sees_frame {w : InventoryWrite} {cat : UnitCatalog} {r : InventoryResource}
    (h : r ∉ w.touches cat) (t : InventoryTables) :
    (w.apply t).claims.filter r.sees = t.claims.filter r.sees := by
  cases w with
  | insertClaim claim => exact filter_insertClaim (InventoryResource.sees_of_touches h)
  | deactivate claim => exact filter_deactivate r.sees_keyed (InventoryResource.sees_of_touches h)
  | _ => rfl

theorem InventoryWrite.sees_confined {r : InventoryResource} {s t : InventoryTables} (w : InventoryWrite)
    (h : s.claims.filter r.sees = t.claims.filter r.sees) :
    (w.apply s).claims.filter r.sees = (w.apply t).claims.filter r.sees := by
  cases w with
  | insertClaim claim => simp only [apply, List.filter_append, h]
  | deactivate claim => simp only [apply, filter_map_released r.sees_keyed, h]
  | _ => exact h

theorem InventoryWrite.whole_frame {w : InventoryWrite} {cat : UnitCatalog} {roomId date : Nat}
    (h : .roomDay roomId date ∉ w.touches cat) (t : InventoryTables) :
    (w.apply t).wholeClaimId roomId date = t.wholeClaimId roomId date := by
  cases w with
  | insertRoomDay a b | setWhole a b _ =>
    simp only [apply]
    refine setRow_of_ne fun hSame => h ?_
    rw [hSame.1, hSame.2]
    exact List.mem_singleton.mpr rfl
  | _ => rfl

theorem InventoryWrite.bed_frame {w : InventoryWrite} {cat : UnitCatalog} {bedId date : Nat}
    (h : .roomDay (cat.roomId bedId) date ∉ w.touches cat) (t : InventoryTables) :
    (w.apply t).bedClaimId bedId date = t.bedClaimId bedId date := by
  cases w with
  | insertBedDay a b | setBed a b _ =>
    simp only [apply]
    refine setRow_of_ne fun hSame => h ?_
    rw [hSame.1, hSame.2]
    exact List.mem_singleton.mpr rfl
  | _ => rfl

theorem InventoryWrite.order_frame {w : InventoryWrite} {cat : UnitCatalog} {orderId : Nat}
    (h : .order orderId ∉ w.touches cat) (t : InventoryTables) :
    (w.apply t).orders orderId = t.orders orderId := by
  cases w with
  | putOrder a _ =>
    refine Function.update_of_ne (fun hSame => h ?_) _ _
    rw [hSame]
    exact List.mem_singleton.mpr rfl
  | _ => rfl

theorem InventoryWrite.whole_confined {roomId date : Nat} {s t : InventoryTables} (w : InventoryWrite)
    (h : s.wholeClaimId roomId date = t.wholeClaimId roomId date) :
    (w.apply s).wholeClaimId roomId date = (w.apply t).wholeClaimId roomId date := by
  cases w with
  | insertRoomDay | setWhole =>
    simp only [apply]
    exact setRow_congr h
  | _ => exact h

theorem InventoryWrite.bed_confined {bedId date : Nat} {s t : InventoryTables} (w : InventoryWrite)
    (h : s.bedClaimId bedId date = t.bedClaimId bedId date) :
    (w.apply s).bedClaimId bedId date = (w.apply t).bedClaimId bedId date := by
  cases w with
  | insertBedDay | setBed =>
    simp only [apply]
    exact setRow_congr h
  | _ => exact h

theorem InventoryWrite.order_confined {orderId : Nat} {s t : InventoryTables} (w : InventoryWrite)
    (h : s.orders orderId = t.orders orderId) : (w.apply s).orders orderId = (w.apply t).orders orderId := by
  cases w with
  | putOrder a row => simp only [apply, Function.update_apply, h]
  | _ => exact h

theorem InventoryResource.observe_frame (cat : UnitCatalog) (w : InventoryWrite) (t : InventoryTables)
    (r : InventoryResource) (h : r ∉ w.touches cat) : r.observe cat (w.apply t) = r.observe cat t := by
  have hClaims := InventoryWrite.sees_frame h t
  cases r with
  | roomDay roomId date =>
    have hBeds : ∀ b, (if cat.roomId b = roomId then (w.apply t).bedClaimId b date else none) =
        if cat.roomId b = roomId then t.bedClaimId b date else none := by
      intro b
      split
      · next hRoom => exact InventoryWrite.bed_frame (hRoom ▸ h) t
      · rfl
    change roomDayView cat roomId date _ = roomDayView cat roomId date _
    simp only [roomDayView, hClaims, InventoryWrite.whole_frame h t, hBeds]
  | claim claimId => exact hClaims
  | order orderId => exact Prod.ext (InventoryWrite.order_frame h t) hClaims

theorem InventoryResource.observe_confined (cat : UnitCatalog) (w : InventoryWrite)
    (s t : InventoryTables) (r : InventoryResource) (h : r.observe cat s = r.observe cat t) :
    r.observe cat (w.apply s) = r.observe cat (w.apply t) := by
  cases r with
  | roomDay roomId date =>
    change roomDayView cat roomId date _ = roomDayView cat roomId date _ at h ⊢
    simp only [roomDayView, RoomDayView.mk.injEq] at h ⊢
    obtain ⟨hClaims, hWhole, hBeds⟩ := h
    refine ⟨w.sees_confined hClaims, w.whole_confined hWhole, funext fun b => ?_⟩
    have hBed := congrFun hBeds b
    split
    · next hRoom =>
      simp only [hRoom, if_true] at hBed
      exact w.bed_confined hBed
    · rfl
  | claim claimId => exact w.sees_confined h
  | order orderId =>
    obtain ⟨hRow, hClaims⟩ := Prod.ext_iff.mp h
    exact Prod.ext (w.order_confined hRow) (w.sees_confined hClaims)

def inventoryAccess (cat : UnitCatalog) :
    LockedStore.Access InventoryTables InventoryWrite InventoryResource where
  apply w t := w.apply t
  touches := InventoryWrite.touches cat
  View := InventoryResource.View
  observe := InventoryResource.observe cat
  frame w t r h := InventoryResource.observe_frame cat w t r h
  confined w s t r h := InventoryResource.observe_confined cat w s t r h

end GreenPms
