import SwiftProjectKit.Primitives.Percent

namespace Strings

def bytes (string : String) : List UInt8 :=
  string.toByteArray.data.toList

def urlQueryAllowed : List Char :=
  "!$&'()*+,-./0123456789:;=?@ABCDEFGHIJKLMNOPQRSTUVWXYZ_abcdefghijklmnopqrstuvwxyz~".toList

def isAllowed (allowed : List Char) (b : UInt8) : Bool :=
  Char.ofNat b.toNat ∈ allowed

def addingPercentEncoding (self : String) (allowed : List Char) : Option String :=
  String.fromUTF8? <| List.toByteArray <| Percent.encode (isAllowed allowed) <| bytes self

def removingPercentEncoding (self : String) : Option String :=
  Percent.decode (bytes self) |>.bind fun bs => String.fromUTF8? bs.toByteArray

def urlEncoded (self : String) : String :=
  let encodeUrlString := addingPercentEncoding self urlQueryAllowed
  encodeUrlString.getD ""

def urlDecoded (self : String) : String :=
  removingPercentEncoding self |>.getD ""

def linkString (linkTextField : Option String) : Option String :=
  linkTextField.bind (addingPercentEncoding · urlQueryAllowed)

end Strings
