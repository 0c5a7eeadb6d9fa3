import Coinage.Form.Reader
import Coinage.Registry.Message

/-!
The forms that commands and queries are sent in. A message is an object with one operation in it,
named by its key; amounts are unsigned numbers of 128 bits and exponents of 32.
-/

namespace Coinage.Form

open Reader Object

/-- A sender and what it wants done. -/
structure Order where
  sender : String
  command : Command
deriving DecidableEq, Repr

def maxAmount : Int := 0xFFFFFFFFFFFFFFFFFFFFFFFFFFFFFFFF

def maxExponent : Int := 0xFFFFFFFF

def unit : Reader DenomUnit := object fun o =>
  DenomUnit.mk <$> o.required "denom" string
    <*> o.optional "exponent" 0 (integer 0 maxExponent)
    <*> o.optional "aliases" [] (list string)

def metadata : Reader Metadata := object fun o =>
  Metadata.mk <$> o.optional "description" none (nullable string)
    <*> o.optional "denom_units" [] (list unit)
    <*> o.optional "base" none (nullable string)
    <*> o.optional "display" none (nullable string)
    <*> o.optional "name" none (nullable string)
    <*> o.optional "symbol" none (nullable string)

def amount (o : Object) : Checked Int := o.required "amount" (integer 0 maxAmount)

def command : Reader Command := tagged [
  ("create_denom", object fun o =>
    Command.createDenom <$> o.required "subdenom" string
      <*> o.optional "metadata" none (nullable metadata)),
  ("change_admin", object fun o =>
    Command.changeAdmin <$> o.required "denom" string <*> o.required "new_admin_address" string),
  ("mint_tokens", object fun o =>
    Command.mintTokens <$> o.required "denom" string <*> amount o
      <*> o.required "mint_to_address" string),
  ("burn_tokens", object fun o =>
    Command.burnTokens <$> o.required "denom" string <*> amount o
      <*> o.optional "burn_from_address" (Text.ofString "") string),
  ("force_transfer", object fun o =>
    Command.forceTransfer <$> o.required "denom" string <*> amount o
      <*> o.required "from_address" string <*> o.required "to_address" string),
  ("set_metadata", object fun o =>
    Command.setMetadata <$> o.required "denom" string <*> o.required "metadata" metadata)]

def order : Reader Order := object fun o =>
  Order.mk <$> o.required "sender" nonEmptyString <*> o.required "msg" command

def query : Reader Query := tagged [
  ("full_denom", object fun o =>
    Query.fullDenom <$> o.required "creator_addr" string <*> o.required "subdenom" string),
  ("metadata", object fun o => Query.metadata <$> o.required "denom" string),
  ("admin", object fun o => Query.admin <$> o.required "denom" string),
  ("denoms_by_creator", object fun o => Query.denomsByCreator <$> o.required "creator" string),
  ("params", object fun _ => pure Query.params)]

end Coinage.Form
