import SwiftProjectKit.Primitives.Dotted

namespace Device

def int (cs : List Char) : Option Int :=
  let n := match cs with
    | '-' :: cs => natural cs |>.map (-·)
    | '+' :: cs => natural cs
    | cs        => natural cs
  n.filter fun n => -2 ^ 63 ≤ n ∧ n < 2 ^ 63
where
  natural (cs : List Char) : Option Int :=
    Digits.ofList cs |>.map fun digits : Digits => (natValue digits.chars : Int)

-- The characters of a version are digits and dots. The result is `none` if there is no number to be unwrapped.
def sp_numberVersion (systemVersion : List Char) : Option Int :=
  let versionString := Dotted.replacingOccurrences systemVersion '.' ['0']
  let versionString := if versionString.length < 5 then versionString ++ ['0', '0'] else versionString
  int versionString

end Device
