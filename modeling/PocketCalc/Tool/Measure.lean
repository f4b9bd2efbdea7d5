import PocketCalc.Text.Blank

/-!
# Masses, lengths and temperatures

Three quantities with the units that a menu offers for them. Masses and lengths convert by a factor
to a base unit, temperatures by way of degrees Celsius.
-/

namespace PocketCalc

/-- The units of one quantity, and how they convert. -/
class Measure (U : Type) where
  /-- All units, in the order of the menu. -/
  all : List U
  /-- The short sign behind a result. -/
  code : U → Text
  /-- The name in the menu. -/
  label : U → Text
  /-- A number in the first unit as a number in the second. -/
  convert : Float → U → U → Float
  /-- The number of places in which a result is shown. -/
  places : Nat
  /-- Whether zero is a value to convert, and not a field left alone. -/
  acceptsZero : Bool

/-- Converts by way of a base unit, given how much of it one unit is. -/
def convertByFactor {U : Type} (factor : U → Float) (v : Float) (source target : U) : Float :=
  v * factor source / factor target

/-! ## Masses -/

/-- Units of mass. -/
inductive Mass where
  | kilogram
  | pound
  | gram
  | ounce
  | stone
  | tonne
deriving DecidableEq

namespace Mass

/-- Kilograms in one unit. -/
def factor : Mass → Float
  | .kilogram => 1
  | .pound => 0.453592
  | .gram => 0.001
  | .ounce => 0.0283495
  | .stone => 6.35029
  | .tonne => 1000

instance : Measure Mass where
  all := [.kilogram, .pound, .gram, .ounce, .stone, .tonne]
  code
    | .kilogram => "kg".toList
    | .pound => "lbs".toList
    | .gram => "g".toList
    | .ounce => "oz".toList
    | .stone => "st".toList
    | .tonne => "t".toList
  label
    | .kilogram => "Kilogrammes (kg)".toList
    | .pound => "Livres (lbs)".toList
    | .gram => "Grammes (g)".toList
    | .ounce => "Onces (oz)".toList
    | .stone => "Stone".toList
    | .tonne => "Tonnes".toList
  convert := convertByFactor factor
  places := 4
  acceptsZero := false

end Mass

/-! ## Lengths -/

/-- Units of length. -/
inductive Length where
  | metre
  | foot
  | inch
  | centimetre
  | millimetre
  | kilometre
  | yard
  | mile
deriving DecidableEq

namespace Length

/-- Metres in one unit. -/
def factor : Length → Float
  | .metre => 1
  | .foot => 0.3048
  | .inch => 0.0254
  | .centimetre => 0.01
  | .millimetre => 0.001
  | .kilometre => 1000
  | .yard => 0.9144
  | .mile => 1609.34

instance : Measure Length where
  all := [.metre, .foot, .inch, .centimetre, .millimetre, .kilometre, .yard, .mile]
  code
    | .metre => "m".toList
    | .foot => "ft".toList
    | .inch => "in".toList
    | .centimetre => "cm".toList
    | .millimetre => "mm".toList
    | .kilometre => "km".toList
    | .yard => "yd".toList
    | .mile => "mi".toList
  label
    | .metre => "Mètres (m)".toList
    | .foot => "Pieds (ft)".toList
    | .inch => "Pouces (in)".toList
    | .centimetre => "Centimètres (cm)".toList
    | .millimetre => "Millimètres (mm)".toList
    | .kilometre => "Kilomètres (km)".toList
    | .yard => "Yards (yd)".toList
    | .mile => "Miles (mi)".toList
  convert := convertByFactor factor
  places := 6
  acceptsZero := false

end Length

/-! ## Temperatures -/

/-- Scales of temperature. -/
inductive Temperature where
  | celsius
  | fahrenheit
  | kelvin
  | rankine
deriving DecidableEq

namespace Temperature

/-- A temperature in degrees Celsius. -/
def toCelsius (v : Float) : Temperature → Float
  | .celsius => v
  | .fahrenheit => (v - 32) * 5 / 9
  | .kelvin => v - 273.15
  | .rankine => (v - 491.67) * 5 / 9

/-- A temperature in degrees Celsius on another scale. -/
def ofCelsius (c : Float) : Temperature → Float
  | .celsius => c
  | .fahrenheit => c * 9 / 5 + 32
  | .kelvin => c + 273.15
  | .rankine => (c + 273.15) * 9 / 5

instance : Measure Temperature where
  all := [.celsius, .fahrenheit, .kelvin, .rankine]
  code
    | .celsius => "°C".toList
    | .fahrenheit => "°F".toList
    | .kelvin => "K".toList
    | .rankine => "°R".toList
  label
    | .celsius => "Celsius (°C)".toList
    | .fahrenheit => "Fahrenheit (°F)".toList
    | .kelvin => "Kelvin (K)".toList
    | .rankine => "Rankine (°R)".toList
  convert v source target := ofCelsius (toCelsius v source) target
  places := 2
  acceptsZero := true

end Temperature

end PocketCalc
