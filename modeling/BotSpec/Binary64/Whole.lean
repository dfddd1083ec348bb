/-!
# Whole doubles

The whole doubles next to a double that is not negative: `floor` below it, `ceil` above it, `round`
the nearest one. All three go through the conversion to a 64-bit count, which cuts the fraction off.
-/

namespace BotSpec.Binary64

/-- From here on every double is whole. -/
def wholeFrom : Float := 4503599627370496

/-- The largest whole double that is not above `x`. -/
def floor (x : Float) : Float := if x < wholeFrom then x.toUInt64.toFloat else x

/-- The smallest whole double that is not below `x`. -/
def ceil (x : Float) : Float := if floor x < x then floor x + 1 else floor x

/-- The whole double nearest to `x`, the larger one of two. -/
def round (x : Float) : Float := if x - floor x < 0.5 then floor x else floor x + 1

end BotSpec.Binary64
