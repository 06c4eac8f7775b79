import GreenPms.Community.Residence

/-! # Residents of a day

A guest is a resident after seven paid nights without a gap, or by the use of a membership. Paid
stays of which either is open are listed for review.
-/

namespace GreenPms

open Intervals Keyed

inductive ResidentKey where
  | residence (key : ResidenceKey)
  | order (orderId : Nat) (registrationKey : Option Nat)
  deriving DecidableEq, Repr

inductive OccupantKey where
  | registration (registrationKey : Nat)
  | person (personKey : Nat)
  | unknown
  deriving DecidableEq, Repr

structure CommunityResidentPerson where
  orderId : Nat
  memberId : Option Nat
  occupantId : Option Nat
  occupantName : Option String
  memberName : Option String
  roomCode : Option String
  arrivalDate : Option Nat
  departureDate : Option Nat
  deriving DecidableEq, Repr

structure CommunityResidentReviewItem where
  person : CommunityResidentPerson
  reason : String
  reasonLabel : Option String
  deriving DecidableEq, Repr

structure CommunityResidentMemberItem where
  person : CommunityResidentPerson
  memberEntitlement : Bool
  deriving DecidableEq, Repr

structure CommunityResidentDay where
  date : Nat
  longStay : Nat
  member : Option Nat
  total : Option Nat
  memberReview : Nat
  knownTotal : Nat
  knownMember : Nat
  residentReview : Nat
  reviewItems : List CommunityResidentReviewItem
  memberItems : Option (List CommunityResidentMemberItem)
  deriving DecidableEq, Repr

namespace CommunityStay

variable (stay : CommunityStay)

def occupantKey : OccupantKey :=
  match stay.registrationKey with
  | some key => .registration key
  | none => (stay.personKey.map OccupantKey.person).getD .unknown

def residentKey : ResidentKey := (stay.residenceKey.map ResidentKey.residence).getD (.order stay.orderId stay.registrationKey)

def seat : Nat × OccupantKey := (stay.orderId, stay.occupantKey)

def identityStatus (date : Nat) : Option MembershipStatus :=
  ((stay.membershipByDate date).map CommunityMembershipEvidence.status).or stay.memberStatus

def longStayEligible : Bool := stay.attendanceConfirmed && stay.historical && !stay.needsReview

/-- The guest as the lists show him, by name only today. -/
def display (today date : Nat) : CommunityResidentPerson where
  orderId := stay.orderId
  memberId := (stay.membershipByDate date).bind CommunityMembershipEvidence.memberId
  occupantId := stay.registrationKey
  occupantName := if date = today then
      some (stay.occupantName.getD (if stay.registrationKey.isSome then "住客姓名未填写" else "未登记实际住客"))
    else none
  memberName := if date = today then stated ((stay.membershipByDate date).bind CommunityMembershipEvidence.memberName)
    else none
  roomCode := if date = today then stated stay.roomCode else none
  arrivalDate := if date = today then stay.arrivalDate else none
  departureDate := if date = today then stay.departureDate else none

end CommunityStay

section Day

variable (stays : List CommunityStay) (today date : Nat)

def residentStays : List CommunityStay := stays.filter fun stay => !stay.free && stay.relevant today date

/-- The guests whose use of a membership an order confirms. -/
def representatives (orderId : Nat) : List OccupantKey :=
  (((residentStays stays today date).filter fun stay => stay.identityStatus date = some .confirmed &&
    stay.orderId = orderId).map CommunityStay.occupantKey).eraseDups

def ambiguousRepresentative (stay : CommunityStay) : Bool :=
  stay.identityStatus date = some .confirmed && 1 < (representatives stays today date stay.orderId).length

def residentStatus (stay : CommunityStay) : Option MembershipStatus :=
  if (stay.attendanceConfirmed = false ∧ stay.identityStatus date ≠ some .notMember) ∨
      ambiguousRepresentative stays today date stay = true then some .unknown
  else stay.identityStatus date

def attendanceOpen (stay : CommunityStay) : Bool :=
  stay.attendanceConfirmed = false || stay.needsReview ||
    (stay.residenceKey.isNone && residentStatus stays today date stay ≠ some .confirmed)

def reviewReasons (stay : CommunityStay) : List (String × String) :=
  let evidence := stay.membershipByDate date
  (if residentStatus stays today date stay = some .unknown then
    if ambiguousRepresentative stays today date stay then
      [("同一订单存在多位权益统计代表，不能重复计数或随机选取。", "主要住客登记不唯一")]
    else if stay.attendanceConfirmed = false then
      [(stay.durationReviewReason.getD "实际在住日期与人数依据待核对，不能仅凭权益使用认定当天在住。", "实际在住日期待核对")]
    else [((evidence.bind CommunityMembershipEvidence.reason).getD "订单当天会员权益使用依据待核对。",
      (evidence.bind CommunityMembershipEvidence.reasonLabel).getD "会员权益使用待核对")]
  else []) ++
    if attendanceOpen stays today date stay then
      [(stay.durationReviewReason.getD "实际住客身份与连续住宿日期待核对。",
        if stay.attendanceConfirmed = false ∨ stay.needsReview = true then "实际在住日期待核对" else "实际住客资料待补充")]
    else []

def residentPeople : List ((Nat × OccupantKey) × CommunityStay) :=
  lastRows CommunityStay.seat (residentStays stays today date)

def confirmedMembers : List ResidentKey :=
  (((residentStays stays today date).filter fun stay => residentStatus stays today date stay = some .confirmed).map
    CommunityStay.residentKey).eraseDups

def memberReviews : List (Nat × OccupantKey) :=
  (((residentStays stays today date).filter fun stay => residentStatus stays today date stay = some .unknown).map
    CommunityStay.seat).eraseDups

def residentReviews : List (Nat × OccupantKey) :=
  (((residentStays stays today date).filter fun stay => residentStatus stays today date stay = some .unknown ||
    (attendanceOpen stays today date stay && residentStatus stays today date stay ≠ some .confirmed)).map
      CommunityStay.seat).eraseDups

/-- The texts of a seat are joined over its stays, and its last stay is shown. -/
def addReviewItem (stay : CommunityStay) (item : Option (CommunityStay × List (String × String))) :
    CommunityStay × List (String × String) :=
  (stay, (item.map Prod.snd).getD [] ++ reviewReasons stays today date stay)

def reviewItems (includeMembers : Bool) : List CommunityResidentReviewItem :=
  let open_ := (residentStays stays today date).filter fun stay => !(reviewReasons stays today date stay).isEmpty
  (tally CommunityStay.seat (addReviewItem stays today date) [] open_).map fun (_, stay, reasons) =>
    let shown := stay.display today date
    {
      person := if includeMembers then shown else { shown with
        occupantName := none, memberName := none, roomCode := none, arrivalDate := none, departureDate := none }
      reason := "；".intercalate (reasons.map Prod.fst).eraseDups
      reasonLabel := if date = today ∧ includeMembers = true then
          some ("；".intercalate (reasons.map Prod.snd).eraseDups)
        else none }

def memberItems : List CommunityResidentMemberItem :=
  (lastRows CommunityStay.seat ((residentStays stays today today).filter fun stay =>
    residentStatus stays today today stay = some .confirmed)).map fun (_, stay) =>
      ⟨stay.display today today, (stay.membershipByDate today).any CommunityMembershipEvidence.memberEntitlement⟩

def residenceSpans (chain : List CommunityStay) : List (Nat × Nat) :=
  (residences chain).map fun c => (first CommunityStay.arrival c, reach CommunityStay.departure c)

/-- A seven-night residence on a date on which an included stay is there. -/
def longStayIn (operating : List CommunityStay) (span : Nat × Nat) : Bool :=
  span.1 ≤ date && date < span.2 && 7 ≤ date - span.1 && operating.any fun stay =>
    (if date = today then stay.relevant today date else decide (stay.arrival ≤ date ∧ date < stay.departure)) &&
      stay.arrival < span.2 && span.1 < stay.departure

/-- The guests of a long stay, by the residences of all paid stays. -/
def longStays (continuous : List CommunityStay) : List ResidenceKey :=
  ((Indexes.groups CommunityStay.paidKey continuous).filter fun group =>
    (residenceSpans group.2).any (longStayIn today date (stays.filter fun stay => stay.paidKey = some group.1))).map Prod.fst

/-- The seats whose guest is a resident by a long stay. -/
def longStaySeats (continuous : List CommunityStay) : List ((Nat × OccupantKey) × CommunityStay) :=
  (residentPeople stays today date).filter fun (_, stay) => stay.longStayEligible &&
    stay.residentKey ∈ (longStays stays today date continuous).map ResidentKey.residence

def residentDay (continuous : List CommunityStay) (includeMembers : Bool) : CommunityResidentDay :=
  let seats := longStaySeats stays today date continuous
  let longStayPeople := (seats.map fun (_, stay) => stay.residentKey).eraseDups
  let member := confirmedMembers stays today date
  let review := memberReviews stays today date
  let known := (longStayPeople ++ member).eraseDups
  let residentReview := ((residentReviews stays today date).filter fun seat => seat ∉ seats.map Prod.fst).length
  {
    date
    longStay := longStayPeople.length
    member := if review.isEmpty then some member.length else none
    total := if residentReview = 0 then some known.length else none
    memberReview := review.length
    knownTotal := known.length
    knownMember := member.length
    residentReview
    reviewItems := reviewItems stays today date includeMembers
    memberItems := if includeMembers then some (memberItems stays today) else none }

end Day

end GreenPms
