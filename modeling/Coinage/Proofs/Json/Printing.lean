import Coinage.Proofs.Json.Reading
import Coinage.Proofs.Text.Utf8

/-! What the writer writes. It needs no other characters than those from the space to the tilde,
whatever the value. And it writes two surrogates that make up a character in just the way it writes the
character, so what is read again is written in the same way as before. -/

namespace Coinage

open Text (Element joinElements)

namespace Table

variable {κ α : Type} [Ord κ] [Std.TransOrd κ] [Std.LawfulEqOrd κ]

/-- A table has no other entries than those that it was made of. -/
theorem mem_of_mem_ofList {e : κ × α} {es : List (κ × α)} (h : e ∈ (ofList es).entries) : e ∈ es := by
  induction es with
  | nil => cases h
  | cons x r ih =>
      have hplace : e ∈ place x.1 x.2 (ofList r).entries := h
      rcases mem_place hplace with rfl | hr
      · exact List.mem_cons_self
      · exact List.mem_cons_of_mem x (ih hr)

end Table

namespace Json

/-! ### Printable characters -/

/-- All characters are from the space to the tilde. -/
def Printable (cs : List Char) : Prop := ∀ c ∈ cs, 0x20 ≤ c.toNat ∧ c.toNat ≤ 0x7E

instance (cs : List Char) : Decidable (Printable cs) := List.decidableBAll _ cs

theorem Printable.cons {c : Char} {cs : List Char} (hc : Printable [c]) (h : Printable cs) :
    Printable (c :: cs) :=
  List.forall_mem_cons.mpr ⟨hc c List.mem_cons_self, h⟩

theorem Printable.append {cs cs' : List Char} (h : Printable cs) (h' : Printable cs') :
    Printable (cs ++ cs') :=
  List.forall_mem_append.mpr ⟨h, h'⟩

theorem printable_hex4 (n : Nat) : Printable (hex4 n) := by
  have hdigit : ∀ d < 16, 0x20 ≤ (Nat.digitChar d).toNat ∧ (Nat.digitChar d).toNat ≤ 0x7E := by
    decide
  intro c hc
  rw [hex4, List.mem_map] at hc
  obtain ⟨d, hd, rfl⟩ := hc
  refine hdigit d ?_
  simp only [List.mem_cons, List.not_mem_nil, or_false] at hd
  omega

theorem printable_unitEscape (unit : Nat) : Printable (unitEscape unit) :=
  .cons (by decide) (.cons (by decide) (printable_hex4 unit))

theorem printable_escapeChar (c : Char) : Printable (escapeChar c) := by
  rw [escapeChar]
  split_ifs with hplain
  case pos =>
    simp only [isPlain, Bool.and_eq_true, decide_eq_true_eq] at hplain
    intro c' hc'
    rw [List.mem_singleton.mp hc']
    exact hplain.1.1
  all_goals first
    | decide
    | exact printable_unitEscape _
    | exact (printable_unitEscape _).append (printable_unitEscape _)

theorem printable_escape (e : Element) : Printable (escape e) := by
  cases e with
  | char c => exact printable_escapeChar c
  | surrogate i => exact printable_unitEscape _

theorem printable_quoted (t : Text) : Printable (quoted t) := by
  have hescaped : Printable (t.elements.flatMap escape) := by
    intro c hc
    obtain ⟨e, -, he⟩ := List.mem_flatMap.mp hc
    exact printable_escape e c he
  exact .cons (by decide) (hescaped.append (by decide))

theorem printable_decimal (n : Int) : Printable (decimal n) := by
  have hdigits : Printable (Nat.toDigits 10 n.natAbs) := by
    intro c hc
    obtain ⟨d, hd, rfl⟩ := exists_digit (Nat.isDigit_of_mem_toDigits (by decide) (by decide) hc)
    interval_cases d <;> decide
  rw [decimal]
  split
  · exact .cons (by decide) hdigits
  · exact hdigits

theorem printable_commaSeparated {ts : List (List Char)} (h : ∀ t ∈ ts, Printable t) :
    Printable (commaSeparated ts) := by
  fun_induction commaSeparated ts with
  | case1 => exact fun c hc => by cases hc
  | case2 t => exact h t List.mem_cons_self
  | case3 t r hr ih =>
      have hrest : Printable (commaSeparated r) := ih fun t' ht' => h t' (List.mem_cons_of_mem t ht')
      exact (h t List.mem_cons_self).append (.cons (by decide) hrest)

mutual

/-- **Whatever is written is printable.** -/
theorem printable_compactChars (v : Json) : Printable (compactChars v) := by
  cases v with
  | null => exact (by decide : Printable ['n', 'u', 'l', 'l'])
  | bool value => cases value <;> rw [compactChars] <;> decide
  | num n => exact printable_decimal n
  | real m e => exact (printable_decimal m).append (.cons (by decide) (printable_decimal e))
  | nonFinite => exact (by decide : Printable ['N', 'a', 'N'])
  | str t => exact printable_quoted t
  | arr items =>
      rw [compactChars]
      exact .cons (by decide)
        ((printable_commaSeparated (printable_compactItems items)).append (by decide))
  | obj members =>
      rw [compactChars]
      refine .cons (by decide) ((printable_commaSeparated fun t ht => ?_).append (by decide))
      obtain ⟨m, hm, rfl⟩ := List.mem_map.mp ht
      exact (printable_quoted m.1).append
        (.cons (by decide) (printable_compactMembers members m (Table.mem_of_mem_ofList hm)))

theorem printable_compactItems (vs : List Json) : ∀ t ∈ compactItems vs, Printable t := by
  cases vs with
  | nil => exact fun t ht => by cases ht
  | cons v r =>
      rw [compactItems]
      exact List.forall_mem_cons.mpr ⟨printable_compactChars v, printable_compactItems r⟩

theorem printable_compactMembers (ms : List (Text × Json)) :
    ∀ m ∈ compactMembers ms, Printable m.2 := by
  match ms with
  | [] => exact fun m hm => by cases hm
  | (k, v) :: r =>
      rw [compactMembers]
      exact List.forall_mem_cons.mpr ⟨printable_compactChars v, printable_compactMembers r⟩

end

/-! ### Writing again -/

theorem toNat_ofPair {high low : Nat} (hhigh : isHigh high = true) (hlow : isLow low = true) :
    (ofPair high low).toNat = 0x10000 + (high - 0xD800) * 0x400 + (low - 0xDC00) := by
  rw [isHigh_iff] at hhigh
  rw [isLow_iff] at hlow
  rw [ofPair]
  exact Text.Utf8.toNat_charOfNat (.inr (by omega))

/-- A character above `FFFF` is written as two units. -/
theorem escapeChar_of_large {c : Char} (hc : 0x10000 ≤ c.toNat) :
    escapeChar c = unitEscape (0xD800 + (c.toNat - 0x10000) / 0x400) ++
      unitEscape (0xDC00 + (c.toNat - 0x10000) % 0x400) := by
  have hne : ∀ x : Char, x.toNat < 0x10000 → c ≠ x := by
    rintro x hx rfl
    omega
  have hplain : isPlain c = false := by
    have htilde : ¬ c ≤ '~' := by
      intro hle
      have hle : c.toNat ≤ 126 := hle
      omega
    simp [isPlain, htilde]
  rw [escapeChar, hplain, if_neg Bool.false_ne_true, if_neg (hne _ (by decide)),
    if_neg (hne _ (by decide)), if_neg (hne _ (by decide)), if_neg (hne _ (by decide)),
    if_neg (hne _ (by decide)), if_neg (hne _ (by decide)), if_neg (hne _ (by decide)),
    if_neg (by omega)]

/-- The units are those that make up the character. -/
theorem escapeChar_ofPair {high low : Nat} (hhigh : isHigh high = true) (hlow : isLow low = true) :
    escapeChar (ofPair high low) = unitEscape high ++ unitEscape low := by
  have hcode := toNat_ofPair hhigh hlow
  rw [isHigh_iff] at hhigh
  rw [isLow_iff] at hlow
  have hfirst : 0xD800 + ((ofPair high low).toNat - 0x10000) / 0x400 = high := by omega
  have hsecond : 0xDC00 + ((ofPair high low).toNat - 0x10000) % 0x400 = low := by omega
  rw [escapeChar_of_large (by omega), hfirst, hsecond]

theorem flatMap_escape_joinElements (es : List Element) :
    (joinElements es).flatMap escape = es.flatMap escape := by
  fun_induction joinElements es with
  | case1 e e' r hpair ih =>
      obtain ⟨hhigh, hlow⟩ := Bool.and_eq_true_iff.mp hpair
      cases e with
      | char c => rw [Element.not_isHigh_char] at hhigh; cases hhigh
      | surrogate i =>
          cases e' with
          | char c => rw [Element.not_isLow_char] at hlow; cases hlow
          | surrogate j =>
              have hchar : escape (.char (ofPair (Element.surrogate i).code (Element.surrogate j).code)) =
                  escape (.surrogate i) ++ escape (.surrogate j) := escapeChar_ofPair hhigh hlow
              rw [List.flatMap_cons, ih, hchar, List.append_assoc]
              rfl
  | case2 e e' r hpair ih =>
      rw [List.flatMap_cons, ih]
      rfl
  | case3 es h => rfl

theorem quoted_joined (t : Text) : quoted t.joined = quoted t := by
  rw [quoted, quoted, Text.joined, flatMap_escape_joinElements]

end Json

end Coinage
