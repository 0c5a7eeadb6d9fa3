/-!
Addresses of accounts. Their form is all that is checked: 3 to 90 characters, each a lowercase ASCII
letter, a digit, a dot, an underscore or a hyphen.
-/

namespace Coinage.Address

def isAddressChar (c : Char) : Bool :=
  c.isLower || c.isDigit || c == '.' || c == '_' || c == '-'

def isValid (address : String) : Bool :=
  3 ≤ address.length && address.length ≤ 90 && address.toList.all isAddressChar

end Coinage.Address
