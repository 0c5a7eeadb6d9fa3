/-!
Capital letters of ASCII. Some letters outside ASCII have them as their capitals too: a sharp and a
long s, an i without its dot, and ligatures, which take apart into several letters. No other
character has a capital form in ASCII; it is left as it is.
-/

namespace Coinage.Text

def capitalChar (c : Char) : List Char :=
  match c with
  | 'ß' => ['S', 'S']
  | 'ı' => ['I']
  | 'ſ' => ['S']
  | '\ufb00' => ['F', 'F']
  | '\ufb01' => ['F', 'I']
  | '\ufb02' => ['F', 'L']
  | '\ufb03' => ['F', 'F', 'I']
  | '\ufb04' => ['F', 'F', 'L']
  | '\ufb05' | '\ufb06' => ['S', 'T']
  | c => [c.toUpper]

def capitals (s : String) : String := String.ofList (s.toList.flatMap capitalChar)

end Coinage.Text
