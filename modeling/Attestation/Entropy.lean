-- Randomness, drawn request by request. The source is any stream of bytes, told by the
-- number of the request and the place in it; a request is used up once it is made.
import Attestation.Refusal

namespace Attestation

structure Entropy where
  byte : Nat → Nat → UInt8
  /-- The requests made so far. -/
  drawn : Nat

namespace Entropy

/-- The bytes of a request. -/
def block (e : Entropy) (request size : Nat) : List UInt8 := (List.range size).map (e.byte request)

theorem block_length (e : Entropy) (request size : Nat) :
    (e.block request size).length = size := by
  simp [block]

/-- The next request. -/
def draw (e : Entropy) (size : Nat) : List UInt8 × Entropy :=
  (e.block e.drawn size, ⟨e.byte, e.drawn + 1⟩)

/-- A request of a caller's own size, which must be positive. -/
def request (e : Entropy) (size : Int) : Except Refusal (List UInt8) × Entropy :=
  if size ≤ 0 then (.error (Refusal.badSize size).raised, e)
  else
    let (bs, e) := e.draw size.toNat
    (.ok bs, e)

/-- Requests one after another, up to the first that is refused. -/
def requests (e : Entropy) : List Int → Except Refusal (List (List UInt8)) × Entropy
  | [] => (.ok [], e)
  | size :: rest =>
    match e.request size with
    | (.error r, e) => (.error r, e)
    | (.ok bs, e) =>
      match e.requests rest with
      | (.error r, e) => (.error r, e)
      | (.ok more, e) => (.ok (bs :: more), e)

end Entropy

end Attestation
