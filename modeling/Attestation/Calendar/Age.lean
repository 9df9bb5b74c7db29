-- Full years between a birth and a day. A birthday on 29 February is reached on
-- 1 March in a year that has no such day.
import Attestation.Calendar.Date

namespace Attestation

/-- Month and day as one number, so that two birthdays can be compared. -/
def Date.season (d : Date) : Nat := 100 * d.month + d.day

/-- The difference of the years, less one if this year's birthday is still to come. -/
def fullYears (birth today : Date) : Int :=
  let years : Int := (today.year : Int) - birth.year
  if today.season < birth.season then years - 1 else years

end Attestation
