-- The sizes and bounds of the scheme. They stand in one place, so that a
-- reader can check them against each other, and `consistent` does so.

namespace Attestation.Limits

/-- A commitment key has 256 bits. -/
def keySize : Nat := 32

/-- A fresh salt has 256 bits. -/
def saltSize : Nat := 32

/-- A remote verifier refuses a shorter salt. -/
def minSaltSize : Nat := 16

/-- A commitment has 256 bits. -/
def macSize : Nat := 32

/-- Canonical amounts are written without an exponent, so both their magnitude and
their count of fractional digits are capped. Every finite double fits. -/
def maxExponent : Nat := 400

/-- Full years that an age claim asks for when nobody says otherwise. -/
def defaultRequiredAge : Nat := 18

def maxBatchSize : Nat := 1000

/-- The version that a bundle carries in its binary form. -/
def bundleVersion : Nat := 1

/-- A whole number of more digits is neither read from a text nor written as one. -/
def maxDigits : Nat := 4300

/-- The smallest positive double has its last digit this far behind the point, at most. -/
def doubleReach : Nat := 324

/-- The bounds fit together: a salt is long enough for every verifier, a batch can
hold something, and every double can be written out. -/
def consistent : Bool :=
  keySize == 32 && minSaltSize ≤ saltSize && macSize == 32 && 0 < maxBatchSize
    && doubleReach ≤ maxExponent

theorem consistent_eq_true : consistent = true := by decide

end Attestation.Limits
