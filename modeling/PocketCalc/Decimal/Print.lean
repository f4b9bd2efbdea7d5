import PocketCalc.Decimal.Shortest

/-!
# Texts of doubles

Four layouts of one number: positional with the fewest digits, positional with a fixed number of
places, and each of the two with an exponent. A minus sign is kept also where the digits are all
zeros. A number that is not finite has the same text in all of them.
-/

namespace PocketCalc

namespace Decimal

/-- Puts the sign in front of the digits; texts without digits are the same in every layout. -/
def signedText (v : Float) (magnitudeText : Magnitude → Text) : Text :=
  match Reading.ofFloat v with
  | .notANumber => "NaN".toList
  | .infinite negative => if negative then "-inf".toList else "inf".toList
  | .finite negative m => if negative then '-' :: magnitudeText m else magnitudeText m

/-- The positional text with the fewest digits that read back: `1200`, `-0.1`. -/
def plainText (v : Float) : Text := signedText v fun m => m.shortest.plain

/-- The positional text with a fixed number of places: `2.50`. -/
def fixedText (places : Nat) (v : Float) : Text := signedText v fun m => (m.rounded places).plain

/-- The text with an exponent and the fewest digits that read back: `1.2e3`. -/
def shortScientificText (v : Float) : Text := signedText v fun m => m.shortest.scientific

/-- The text with an exponent and a fixed number of places: `1.20000e3`. -/
def scientificText (places : Nat) (v : Float) : Text :=
  signedText v fun m => (m.significant places).scientificTo places

end Decimal

end PocketCalc
