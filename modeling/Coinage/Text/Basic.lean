/-!
Texts. Besides characters a text may have surrogates that stand alone. JSON can spell such a text;
UTF-8 has no encoding of it, and a `String` is a text without them. Texts are ordered by the codes
of their elements.
-/

namespace Coinage

/-- What a text consists of. -/
inductive Text.Element where
  | char (c : Char)
  /-- One half of a character above `FFFF`, by its distance from `D800`. -/
  | surrogate (index : Fin 0x800)
deriving DecidableEq, Repr

structure Text where
  elements : List Text.Element
deriving DecidableEq, Repr

namespace Text

namespace Element

def code : Element → Nat
  | .char c => c.toNat
  | .surrogate index => 0xD800 + index

/-- The element of a code, which is at most `10FFFF`. -/
def ofCode (n : Nat) : Element :=
  if 0xD800 ≤ n ∧ n < 0xE000 then .surrogate (Fin.ofNat 0x800 (n - 0xD800))
  else .char (Char.ofNat n)

def char? : Element → Option Char
  | .char c => some c
  | .surrogate _ => none

theorem code_inj {a b : Element} : a.code = b.code ↔ a = b := by
  have apart (c : Char) (i : Fin 0x800) : c.toNat ≠ 0xD800 + i := by
    have valid : c.toNat < 0xD800 ∨ 0xDFFF < c.toNat ∧ c.toNat < 0x110000 := c.valid
    omega
  cases a <;> cases b <;> simp [code, Char.toNat_inj, Fin.ext_iff, apart, Ne.symm (apart _ _)]

end Element

def ofString (s : String) : Text := ⟨s.toList.map .char⟩

instance : Coe String Text := ⟨ofString⟩

/-- The same text as a `String`, which it is not if it has a surrogate. -/
def toString? (t : Text) : Option String := (t.elements.mapM Element.char?).map String.ofList

instance : Append Text := ⟨fun s t => ⟨s.elements ++ t.elements⟩⟩

def codes (t : Text) : List Nat := t.elements.map Element.code

theorem codes_inj {s t : Text} : s.codes = t.codes ↔ s = t := by
  cases s; cases t
  simp only [codes, mk.injEq]
  exact List.map_inj_right fun _ _ => Element.code_inj.mp

instance : Ord Text where
  compare s t := compare s.codes t.codes

theorem compare_eq_codes (s t : Text) : compare s t = compare s.codes t.codes := rfl

instance : Std.LawfulEqOrd Text where
  compare_self {t} := by
    rw [compare_eq_codes]
    exact Std.ReflCmp.compare_self
  eq_of_compare h := codes_inj.mp (Std.LawfulEqOrd.eq_of_compare h)

instance : Std.TransOrd Text where
  eq_swap {s t} := by
    rw [compare_eq_codes, compare_eq_codes]
    exact Std.OrientedCmp.eq_swap
  isLE_trans {s t u} h h' := by
    rw [compare_eq_codes] at h h' ⊢
    exact Std.TransCmp.isLE_trans h h'

private theorem mapM_char? (cs : List Char) :
    (cs.map Element.char).mapM Element.char? = some cs := by
  induction cs with
  | nil => rfl
  | cons c r ih => simp [Element.char?, ih]

@[simp] theorem toString?_ofString (s : String) : (ofString s).toString? = some s := by
  rw [toString?, ofString, mapM_char?]
  simp

theorem ofString_inj {s t : String} : ofString s = ofString t ↔ s = t :=
  ⟨fun h => by simpa using congrArg toString? h, congrArg ofString⟩

end Text

end Coinage
