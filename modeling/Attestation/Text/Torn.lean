-- Text in code points. Beside the characters there are the 2048 halves of pairs, and a text may
-- hold one that stands alone. Such a text is torn: it has a length, an order and a look, but no
-- bytes in UTF-8. Its first half is kept apart, so that no whole text can pass for a torn one.

namespace Attestation

/-- A code point of a text: a character, or a half by its place among the halves. -/
inductive Point where
  | char (c : Char)
  | half (n : Fin 2048)
  deriving DecidableEq, Repr

namespace Point

/-- The number of the first half. -/
def firstHalf : Nat := 0xD800

def toNat : Point → Nat
  | .char c => c.toNat
  | .half n => firstHalf + n.val

/-- The code point of a number, unless it is too large. -/
def ofNat? (n : Nat) : Option Point :=
  if h : firstHalf ≤ n ∧ n < firstHalf + 2048 then
    some (.half ⟨n - firstHalf, by omega⟩)
  else if n < 0x110000 then some (.char (Char.ofNat n))
  else none

def char? : Point → Option Char
  | .char c => some c
  | .half _ => none

def isHalf (p : Point) : Bool := p.char?.isNone

theorem toNat_inj {p q : Point} : p.toNat = q.toNat ↔ p = q := by
  have hvalid : ∀ c : Char, c.toNat < 0xD800 ∨ (0xDFFF < c.toNat ∧ c.toNat < 0x110000) :=
    fun c => c.valid
  cases p with
  | char c =>
    cases q with
    | char d => simp [toNat, Char.toNat_inj]
    | half n =>
      have hc := hvalid c
      simp only [toNat, firstHalf, reduceCtorEq, iff_false]
      omega
  | half m =>
    cases q with
    | char d =>
      have hd := hvalid d
      simp only [toNat, firstHalf, reduceCtorEq, iff_false]
      omega
    | half n => simp [toNat, Fin.ext_iff]

theorem ofNat?_toNat (p : Point) : ofNat? p.toNat = some p := by
  cases p with
  | char c =>
    have hvalid : c.toNat < 0xD800 ∨ (0xDFFF < c.toNat ∧ c.toNat < 0x110000) := c.valid
    have hwhole : ¬ (firstHalf ≤ c.toNat ∧ c.toNat < firstHalf + 2048) := by
      unfold firstHalf
      omega
    have hsmall : c.toNat < 0x110000 := by omega
    rw [toNat, ofNat?, dif_neg hwhole, if_pos hsmall, Char.ofNat_toNat]
  | half n => simp [toNat, ofNat?]

/-- The code points of characters. -/
def ofChars (cs : List Char) : List Point := cs.map .char

@[simp]
theorem ofChars_nil : ofChars [] = [] := rfl

@[simp]
theorem ofChars_cons (c : Char) (cs : List Char) : ofChars (c :: cs) = .char c :: ofChars cs := rfl

@[simp]
theorem ofChars_append (cs ds : List Char) : ofChars (cs ++ ds) = ofChars cs ++ ofChars ds :=
  List.map_append

@[simp]
theorem length_ofChars (cs : List Char) : (ofChars cs).length = cs.length := List.length_map _

end Point

/-- A text with a half in it: the characters before the first half, and the code points behind. -/
structure Torn where
  front : List Char
  half : Fin 2048
  rest : List Point
  deriving DecidableEq, Repr

namespace Torn

def points (t : Torn) : List Point := Point.ofChars t.front ++ .half t.half :: t.rest

/-- A torn text with a whole one behind it. -/
def append (t : Torn) (s : String) : Torn := { t with rest := t.rest ++ Point.ofChars s.toList }

/-- How many halves stand together where the first one stands. -/
def run (t : Torn) : Nat := 1 + (t.rest.takeWhile Point.isHalf).length

end Torn

/-- A text, whole or torn. -/
inductive Text where
  | whole (s : String)
  | torn (t : Torn)
  deriving DecidableEq, Repr

namespace Text

instance : Coe String Text := ⟨.whole⟩

def points : Text → List Point
  | .whole s => Point.ofChars s.toList
  | .torn t => t.points

/-- Reads code points up to the first half; `front` holds the characters so far, last first. -/
def ofPointsFrom : List Char → List Point → Text
  | front, [] => .whole (String.ofList front.reverse)
  | front, .char c :: rest => ofPointsFrom (c :: front) rest
  | front, .half n :: rest => .torn ⟨front.reverse, n, rest⟩

/-- The text of some code points. -/
def ofPoints (ps : List Point) : Text := ofPointsFrom [] ps

def isEmpty : Text → Bool
  | .whole s => s.isEmpty
  | .torn _ => false

/-- A text with a whole one behind it. -/
def append : Text → String → Text
  | .whole s, t => .whole (s ++ t)
  | .torn s, t => .torn (s.append t)

/-! ## Texts and their code points -/

theorem ofPointsFrom_ofChars (front cs : List Char) :
    ofPointsFrom front (Point.ofChars cs) = .whole (String.ofList (front.reverse ++ cs)) := by
  induction cs generalizing front with
  | nil => simp [ofPointsFrom]
  | cons c cs ih =>
    rw [Point.ofChars_cons, ofPointsFrom, ih]
    simp

theorem ofPointsFrom_torn (front : List Char) (t : Torn) :
    ofPointsFrom front t.points = .torn { t with front := front.reverse ++ t.front } := by
  obtain ⟨cs, n, rest⟩ := t
  induction cs generalizing front with
  | nil => simp [Torn.points, ofPointsFrom]
  | cons c cs ih =>
    have hstep : (Torn.mk (c :: cs) n rest).points = .char c :: (Torn.mk cs n rest).points := rfl
    rw [hstep, ofPointsFrom, ih]
    simp

/-- A text is told by its code points. -/
theorem ofPoints_points (t : Text) : ofPoints t.points = t := by
  cases t with
  | whole s => simp [ofPoints, points, ofPointsFrom_ofChars]
  | torn t => simp [ofPoints, points, ofPointsFrom_torn]

theorem points_ofPointsFrom (front : List Char) (ps : List Point) :
    (ofPointsFrom front ps).points = Point.ofChars front.reverse ++ ps := by
  induction ps generalizing front with
  | nil => simp [ofPointsFrom, points]
  | cons p ps ih =>
    cases p with
    | char c =>
      rw [ofPointsFrom, ih]
      simp
    | half n => rfl

theorem points_ofPoints (ps : List Point) : (ofPoints ps).points = ps := points_ofPointsFrom [] ps

theorem points_inj {s t : Text} : s.points = t.points ↔ s = t := by
  constructor
  · intro h
    rw [← ofPoints_points s, h, ofPoints_points]
  · exact fun h => h ▸ rfl

@[simp]
theorem isEmpty_iff {t : Text} : t.isEmpty = true ↔ t = .whole "" := by
  cases t <;> simp [isEmpty]

theorem isEmpty_points (t : Text) : t.points.isEmpty = t.isEmpty := by
  cases t with
  | whole s =>
    rw [Bool.eq_iff_iff]
    simp [points, isEmpty, Point.ofChars]
  | torn t => simp [points, isEmpty, Torn.points]

end Text

end Attestation
