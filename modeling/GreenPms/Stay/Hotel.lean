import GreenPms.Library.Transition
import GreenPms.Stay.Membership

/-! # A property at work

The commands of a property in any order, each under an identity of its own, while days pass and
units and policies are added to.
-/

namespace GreenPms

open Checked TransitionSystem

inductive HotelCommand where
  | createOrder (orderId : Nat) (request : CreateOrderRequest)
  | rescheduleStay (orderId : Nat) (request : DateChangeRequest)
  | extendStay (orderId : Nat) (request : DateChangeRequest)
  | shortenStay (orderId : Nat) (request : ShortenRequest)
  | moveUnit (orderId : Nat) (blocked : Nat → List Nat → Bool) (request : MoveRequest)
  | repriceOrder (orderId : Nat) (target : Int)
  | refreshMemberCoverage (orderId : Nat)
  | checkIn (orderId : Nat)
  | checkOut (orderId : Nat)
  | completeStay (orderId : Nat)
  | cancelOrder (orderId : Nat)
  | markNoShow (orderId : Nat) (evening : Bool)
  | revokeCheckIn (orderId : Nat)
  | revokeCheckOut (orderId : Nat)
  | amendOnly (type : CommandType) (orderId : Nat)
  | convertStay (orderId : Nat) (request : Hotel.ConversionRequest)
  | createMember (memberId : Nat)
  | activateMembershipOrder (stamp : MembershipStamp) (product : MembershipProduct) (memberId validFrom : Nat)
  | addEntitlementLot (lotId contractId : Nat) (unitKind : EntitlementUnitKind) (units expiresOn : Nat)
  | adjustEntitlement (lotId : Nat) (quantityDelta : Int) (reason : String)
  | expireEntitlement (lotId asOf : Nat)

def Hotel.execute (cat : UnitCatalog) (hotel : Hotel) (commandId : Nat) : HotelCommand → Except Thrown Hotel
  | .createOrder orderId request => hotel.createOrder cat orderId commandId request
  | .rescheduleStay orderId request => hotel.changeDates cat true orderId commandId request
  | .extendStay orderId request => hotel.changeDates cat false orderId commandId request
  | .shortenStay orderId request => hotel.shortenStay cat orderId commandId request
  | .moveUnit orderId blocked request => hotel.moveUnit cat blocked orderId commandId request
  | .repriceOrder orderId target => hotel.repriceOrder cat orderId commandId target
  | .refreshMemberCoverage orderId => hotel.refreshMemberCoverage cat orderId commandId
  | .checkIn orderId => hotel.checkIn orderId commandId
  | .checkOut orderId => hotel.checkOut orderId commandId
  | .completeStay orderId => hotel.completeStay orderId commandId
  | .cancelOrder orderId => hotel.closeReserved false false orderId commandId
  | .markNoShow orderId evening => hotel.closeReserved true evening orderId commandId
  | .revokeCheckIn orderId => hotel.revokeCheckIn orderId commandId
  | .revokeCheckOut orderId => hotel.revokeCheckOut orderId commandId
  | .amendOnly type orderId => hotel.amendOnly type orderId commandId
  | .convertStay orderId request => hotel.convertStay cat orderId commandId request
  | .createMember memberId => hotel.createMember memberId
  | .activateMembershipOrder stamp product memberId validFrom =>
      hotel.activateMembershipOrder stamp product memberId validFrom
  | .addEntitlementLot lotId contractId unitKind units expiresOn =>
      hotel.addEntitlementLot commandId lotId contractId unitKind units expiresOn
  | .adjustEntitlement lotId quantityDelta reason => hotel.adjustEntitlement commandId lotId quantityDelta reason
  | .expireEntitlement lotId asOf => hotel.expireEntitlement commandId lotId asOf

inductive HotelEvent where
  | command (command : HotelCommand)
  | nextDay
  | describeUnit (unitId : Nat) (details : UnitDetails)
  | publishPolicy (policyVersionId : Nat) (published : PublishedPolicy)

/-- A property with the number of commands that it has carried out. -/
structure HotelState where
  hotel : Hotel
  commandCount : Nat

def HotelState.apply (cat : UnitCatalog) (s : HotelState) : HotelEvent → Except Thrown HotelState
  | .command command => do
      let hotel ← s.hotel.execute cat s.commandCount command
      return ⟨hotel, s.commandCount + 1⟩
  | .nextDay => .ok { s with hotel := { s.hotel with today := s.hotel.today + 1 } }
  | .describeUnit unitId details =>
      .ok { s with hotel := { s.hotel with units := Function.update s.hotel.units unitId (some details) } }
  | .publishPolicy policyVersionId published => do
      require ((s.hotel.policies policyVersionId).isNone = true) .failure
      return { s with hotel :=
        { s.hotel with policies := Function.update s.hotel.policies policyVersionId (some published) } }

structure Hotel.Opening (hotel : Hotel) : Prop where
  orders : ∀ orderId, hotel.orders orderId = none
  lots : hotel.entitlement.lots = []
  contracts : hotel.entitlement.contracts = []
  coverage : hotel.entitlement.coverage = []
  ledger : hotel.entitlement.ledger = []

def hotelSystem (cat : UnitCatalog) : System HotelState HotelEvent where
  init s := s.hotel.Opening
  step s event s' := s.apply cat event = .ok s'

end GreenPms
