import ConsentBanner.Number.Basic
import ConsentBanner.Text.Integer
import ConsentBanner.Text.Quoted

/-!
Lighter and darker shades of hexadecimal colours.
-/

namespace ConsentBanner.Stylesheet

/-- A channel moved by an amount and kept within a byte. -/
def shiftChannel (channel amount : Int) : Nat := (min 255 (max 0 (channel + amount))).toNat

/-- The three channels of `#` and six more characters, read as integers of two characters each. -/
def channels? : List Char → Option (List Int)
  | ['#', a, b, c, d, e, f] =>
    match Text.integerIn? 16 [a, b], Text.integerIn? 16 [c, d], Text.integerIn? 16 [e, f] with
    | some r, some g, some b => some [r, g, b]
    | _, _, _ => none
  | _ => none

/-- The colour lightened by an amount, darkened by a negative one; other texts stay as they are. -/
def adjustColor (color : String) (amount : Int) : String :=
  match channels? color.toList with
  | some channels =>
    String.ofList ('#' :: channels.flatMap fun c => Text.hexDigits 2 (shiftChannel c amount))
  | none => color

/-- A channel moved by any number. A floating point sum between the bounds of a byte has no hexadecimal form;
one outside them is cut to the bound. -/
def shiftChannelBy (channel : Int) : Number → Except Fault Nat
  | .int n => .ok (shiftChannel channel n)
  | .float x =>
    let moved := (Double.ofInt channel).add x
    if moved.compareInt? 0 != some .gt then .ok 0
    else if moved.compareInt? 255 == some .lt then .error .badValue
    else .ok 255

/-- The colour moved by any number, which only a text that is no colour can do without. -/
def adjustColorBy (color : String) (amount : Option Number) : Except Fault String :=
  match channels? color.toList, amount with
  | none, _ => .ok color
  | some _, none => .error .wrongKind
  | some channels, some amount => do
    return String.ofList ('#' :: (← channels.mapM (shiftChannelBy · amount)).flatMap (Text.hexDigits 2))

end ConsentBanner.Stylesheet
