import Coinage.Wire.StringField

/-!
The reply to the creation of a denom: its text, as the one field of a message.
-/

namespace Coinage.Wire.Reply

def denomField : Int := 1

def ofDenom (denom : String) : Except StringField.EncodeError (List UInt8) :=
  StringField.encode denom denomField

def denom (octets : List UInt8) : Except StringField.DecodeError String :=
  StringField.decode octets denomField

end Coinage.Wire.Reply
