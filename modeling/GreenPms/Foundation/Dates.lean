import Mathlib.Data.List.Basic
import GreenPms.Command.Types
import GreenPms.Library.Checked

/-! # Service dates

A local date is its day number, so the dates of a stay are a range of numbers.
-/

namespace GreenPms

open Checked

def maxServiceNights : Nat := 366

def serviceDates (arrivalDate departureDate : Nat) : List Nat :=
  List.range' arrivalDate (departureDate - arrivalDate)

def enumerateServiceDates (arrivalDate departureDate : Nat) : Except DomainError (List Nat) := do
  require (arrivalDate < departureDate)
    (domainError .validationError "departureDate must be after arrivalDate")
  require (departureDate - arrivalDate ≤ maxServiceNights)
    (domainError .validationError "Stay cannot exceed 366 service nights")
  return serviceDates arrivalDate departureDate

def padded (width n : Nat) : String :=
  let digits := toString n
  String.ofList (List.replicate (width - digits.length) '0') ++ digits

def isoDate (day : Nat) : String :=
  let z := day + 719468
  let dayOfEra := z % 146097
  let yearOfEra := (dayOfEra - dayOfEra / 1460 + dayOfEra / 36524 - dayOfEra / 146096) / 365
  let dayOfYear := dayOfEra - (365 * yearOfEra + yearOfEra / 4 - yearOfEra / 100)
  let shifted := (5 * dayOfYear + 2) / 153
  let dayOfMonth := dayOfYear - (153 * shifted + 2) / 5 + 1
  let month := if shifted < 10 then shifted + 3 else shifted - 9
  let year := yearOfEra + z / 146097 * 400 + if month ≤ 2 then 1 else 0
  padded 4 year ++ "-" ++ padded 2 month ++ "-" ++ padded 2 dayOfMonth

example : [isoDate 0, isoDate 11016, isoDate 20512] = ["1970-01-01", "2000-02-29", "2026-02-28"] := by
  decide +kernel

theorem mem_serviceDates {arrivalDate departureDate date : Nat} :
    date ∈ serviceDates arrivalDate departureDate ↔ arrivalDate ≤ date ∧ date < departureDate := by
  rw [serviceDates, List.mem_range'_1]
  omega

theorem serviceDates_nodup (arrivalDate departureDate : Nat) :
    (serviceDates arrivalDate departureDate).Nodup :=
  List.nodup_range'

theorem serviceDates_sorted (arrivalDate departureDate : Nat) :
    (serviceDates arrivalDate departureDate).Pairwise (· < ·) := by
  rw [serviceDates]
  exact List.pairwise_lt_range'

@[simp] theorem serviceDates_length (arrivalDate departureDate : Nat) :
    (serviceDates arrivalDate departureDate).length = departureDate - arrivalDate :=
  List.length_range'

theorem serviceDates_succ {arrivalDate departureDate : Nat} (h : arrivalDate ≤ departureDate) :
    serviceDates arrivalDate (departureDate + 1) = serviceDates arrivalDate departureDate ++ [departureDate] := by
  rw [serviceDates, Nat.succ_sub h, List.range'_1_concat, serviceDates]
  congr 2
  omega

theorem serviceDates_cons {arrivalDate departureDate : Nat} (h : arrivalDate < departureDate) :
    serviceDates arrivalDate departureDate = arrivalDate :: serviceDates (arrivalDate + 1) departureDate := by
  obtain ⟨n, rfl⟩ := Nat.exists_eq_add_of_lt h
  rw [serviceDates, serviceDates, show arrivalDate + n + 1 - arrivalDate = n + 1 by omega,
    show arrivalDate + n + 1 - (arrivalDate + 1) = n by omega, List.range'_succ]

theorem serviceDates_append {a b c : Nat} (hab : a ≤ b) (hbc : b ≤ c) :
    serviceDates a b ++ serviceDates b c = serviceDates a c := by
  have hSum : c - a = (b - a) + (c - b) := by omega
  have hMiddle : a + (b - a) = b := by omega
  rw [serviceDates, serviceDates, serviceDates, hSum, ← List.range'_append_1, hMiddle]

theorem serviceDates_append_inv {a b c d : Nat} {rest : List Nat} (hab : a < b)
    (h : serviceDates a b ++ rest = serviceDates c d) : a = c ∧ b ≤ d ∧ rest = serviceDates b d := by
  have hLength := congrArg List.length h
  rw [List.length_append, serviceDates_length, serviceDates_length] at hLength
  have hStart : a = c := by
    rw [serviceDates_cons hab, serviceDates_cons (by omega : c < d), List.cons_append] at h
    exact (List.cons.inj h).1
  subst hStart
  refine ⟨rfl, by omega, ?_⟩
  rw [← serviceDates_append hab.le (by omega : b ≤ d)] at h
  exact List.append_cancel_left h

theorem enumerateServiceDates_eq_ok {arrivalDate departureDate : Nat} {dates : List Nat} :
    enumerateServiceDates arrivalDate departureDate = .ok dates ↔
      arrivalDate < departureDate ∧ departureDate - arrivalDate ≤ maxServiceNights ∧
        serviceDates arrivalDate departureDate = dates := by
  simp [enumerateServiceDates]

end GreenPms
