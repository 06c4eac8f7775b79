import GreenPms.Library.Indexes

/-! # The community of a day

Stays of guests that may be known by their identity, or only by a registration of an order. A stay
is proven where its dates and its guest are. The figures of a day count the guests who are there,
and no one is counted twice.
-/

namespace GreenPms

inductive MembershipStatus where
  | confirmed | unknown | notMember
  deriving DecidableEq, Repr

structure CommunityMembershipEvidence where
  status : MembershipStatus
  memberId : Option Nat
  memberName : Option String
  reason : Option String
  reasonLabel : Option String
  memberEntitlement : Bool
  deriving DecidableEq, Repr

/-- The stay of a guest. A flag that is absent is not `false`. -/
structure CommunityStay where
  orderId : Nat
  personKey : Option Nat
  arrival : Nat
  departure : Nat
  current : Bool
  free : Bool
  category : Option String
  registrationKey : Option Nat
  occupantName : Option String
  roomCode : Option String
  arrivalDate : Option Nat
  departureDate : Option Nat
  historical : Bool
  attendanceConfirmed : Bool
  durationReviewReason : Option String
  identityApproximate : Bool
  memberStatus : Option MembershipStatus
  membershipByDate : Nat → Option CommunityMembershipEvidence

inductive ResidenceKey where
  | identity (personKey : Nat)
  | registration (orderId registrationKey : Nat)
  deriving DecidableEq, Repr

structure Visit where
  orderId : Nat
  arrival : Nat
  departure : Nat
  deriving DecidableEq, Repr

def stated (text : Option String) : Option String := text.filter fun t => t ≠ ""

namespace CommunityStay

variable (stay : CommunityStay)

def visit : Visit := ⟨stay.orderId, stay.arrival, stay.departure⟩

def residenceKey : Option ResidenceKey :=
  match stay.personKey with
  | some personKey => some (.identity personKey)
  | none => stay.registrationKey.map (.registration stay.orderId)

def needsReview : Bool := (stated stay.durationReviewReason).isSome

def proven : Bool := stay.historical && stay.attendanceConfirmed && !stay.needsReview

def provenKey : Option ResidenceKey := if stay.proven then stay.residenceKey else none

/-- The key under which a proven stay that is paid counts towards a long stay. -/
def paidKey : Option ResidenceKey := if stay.free then none else stay.provenKey

def categoryKey : String := if stay.free then stay.category.getD "OTHER" else "PAID"

/-- Whether a guest is there on a date: by the state of today, or by the dates of the past. -/
def relevant (today date : Nat) : Bool :=
  if date = today then stay.current && stay.arrival ≤ date && date < stay.departure
  else stay.historical && stay.arrival ≤ date && date < stay.departure

end CommunityStay

/-! ## The figures of a day -/

structure CommunityRegistered where
  total : Option Nat
  paid : Nat
  volunteer : Nat
  reception : Nat
  otherFree : Nat
  deriving DecidableEq, Repr

structure CommunityDay where
  date : Nat
  total : Option Nat
  paid : Nat
  volunteer : Nat
  reception : Nat
  otherFree : Nat
  unlinked : Nat
  unclassified : Nat
  registered : CommunityRegistered
  deriving DecidableEq, Repr

inductive RegistrationKey where
  | registration (registrationKey : Nat)
  | person (orderId personKey : Nat)
  deriving DecidableEq, Repr

def CommunityStay.dayRegistration (stay : CommunityStay) : Option RegistrationKey :=
  match stay.registrationKey with
  | some key => some (.registration key)
  | none => stay.personKey.map (.person stay.orderId)

def CommunityStay.dayIdentity (stay : CommunityStay) : Option Nat :=
  if stay.attendanceConfirmed then stay.personKey else none

inductive UnlinkedKey where
  | registration (orderId registrationKey : Nat)
  | place (orderId index : Nat)
  deriving DecidableEq, Repr

/-- A stay is known by its registration, and by its place in the list where it has none. -/
def unlinkedKey (stay : CommunityStay) (index : Nat) : UnlinkedKey :=
  match stay.registrationKey with
  | some key => .registration stay.orderId key
  | none => .place stay.orderId index

/-- The stays without an attendance that is confirmed for a guest who is known. -/
def unlinkedKeys (active : List CommunityStay) : List UnlinkedKey :=
  ((active.filter fun stay => stay.dayIdentity.isNone).zipIdx).map fun (stay, i) => unlinkedKey stay i

def categoriesBy {κ : Type*} [DecidableEq κ] (key : CommunityStay → Option κ) (active : List CommunityStay) :
    List (List String) :=
  (Indexes.groups key active).map fun group => (group.2.map CommunityStay.categoryKey).eraseDups

def countCategory (chosen : String → Bool) (groups : List (List String)) : Nat :=
  groups.countP fun categories => (Indexes.single categories).any chosen

def otherCategory (category : String) : Bool := category ≠ "PAID" && category ≠ "VOLUNTEER" && category ≠ "RECEPTION"

def communityDay (stays : List CommunityStay) (today date : Nat) : CommunityDay :=
  let active := stays.filter fun stay => stay.relevant today date
  let unlinked := (unlinkedKeys active).eraseDups.length
  let registrations := categoriesBy CommunityStay.dayRegistration active
  let missingRegistration := active.any fun stay => stay.dayRegistration.isNone
  let grouped := categoriesBy CommunityStay.dayIdentity active
  {
    date
    total := if unlinked = 0 then some grouped.length else none
    paid := countCategory (· = "PAID") grouped
    volunteer := countCategory (· = "VOLUNTEER") grouped
    reception := countCategory (· = "RECEPTION") grouped
    otherFree := countCategory otherCategory grouped
    unlinked
    unclassified := grouped.countP fun categories => 1 < categories.length
    registered := {
      total := if missingRegistration || registrations.any (fun categories => categories.length ≠ 1) then none
        else some registrations.length
      paid := countCategory (· = "PAID") registrations
      volunteer := countCategory (· = "VOLUNTEER") registrations
      reception := countCategory (· = "RECEPTION") registrations
      otherFree := countCategory otherCategory registrations } }

end GreenPms
