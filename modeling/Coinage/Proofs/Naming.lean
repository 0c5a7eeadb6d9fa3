import Coinage.Proofs.Precedence
import Coinage.Proofs.Wire.Reply

/-! Names from pairs of parts. A pair has three rules to keep: no separator in the creator, and a limit
for either part. The limit for the whole name is just what the other limits add up to, so it never has
a say of its own about a pair that keeps these rules, although it is looked at first. Since the creator
has no separator in it, a name is that of one pair only, whatever there is in the subdenom. A pair with
a surrogate in it gets as far as no rule, since it has no octets to be counted. -/

namespace Coinage

open Check Registry Text

namespace Denom

/-- The name of a pair of parts, if the pair is one of a denom. -/
def assembled (creator subdenom : Text) : Except Fault String :=
  (lookup creator subdenom).map text

/-- What is asked of a pair of parts, in order. All lengths count octets of UTF-8. -/
def pairChecks (creator subdenom : String) : List Check :=
  let name := "factory/" ++ creator ++ "/" ++ subdenom
  let refusal (flaw : Flaw) : Fault := .rejected (.invalidDenom name flaw)
  [⟨3 ≤ name.utf8ByteSize ∧ name.utf8ByteSize ≤ 128, refusal (.totalLength name.utf8ByteSize)⟩,
    ⟨'/' ∉ creator.toList, refusal .slashInCreator⟩,
    ⟨subdenom.utf8ByteSize ≤ 44, refusal .longSubdenom⟩,
    ⟨creator.utf8ByteSize ≤ 75, refusal .longCreator⟩]

section Parts

variable {creator subdenom : String}

/-- Parts that keep their limits make a name that keeps the limits for names. The prefix and the two
separators take nine octets. -/
theorem utf8ByteSize_name_mem (hcreator : creator.utf8ByteSize ≤ 75)
    (hsubdenom : subdenom.utf8ByteSize ≤ 44) :
    3 ≤ ("factory/" ++ creator ++ "/" ++ subdenom).utf8ByteSize ∧
      ("factory/" ++ creator ++ "/" ++ subdenom).utf8ByteSize ≤ 128 := by
  rw [← canonicalText_eq, utf8ByteSize_canonicalText]
  omega

theorem assembled_of_error {flaw : Flaw} (h : ofParts creator subdenom = .error flaw) :
    assembled (ofString creator) (ofString subdenom) =
      .error (.rejected (.invalidDenom (ofString ("factory/" ++ creator ++ "/" ++ subdenom)) flaw)) := by
  rw [assembled, lookup_ofString, h, canonicalText_eq]
  rfl

end Parts

variable {creator subdenom : Text} {name : String}

theorem assembled_eq_ok_iff : assembled creator subdenom = .ok name ↔
    ∃ d : Denom, creator = ofString d.creator ∧ subdenom = ofString d.subdenom ∧ d.text = name := by
  rw [assembled]
  constructor
  · intro h
    obtain ⟨d, hlookup, hname⟩ := Except.map_eq_ok_iff.mp h
    obtain ⟨hcreator, hsubdenom⟩ := lookup_eq_ok_iff.mp hlookup
    exact ⟨d, hcreator, hsubdenom, hname⟩
  · rintro ⟨d, hcreator, hsubdenom, hname⟩
    rw [lookup_eq_ok_iff.mpr ⟨hcreator, hsubdenom⟩]
    exact congrArg Except.ok hname

theorem assembled_eq_ok_iff_pair : assembled creator subdenom = .ok name ↔
    ∃ c s : String, creator = ofString c ∧ subdenom = ofString s ∧ '/' ∉ c.toList ∧
      c.utf8ByteSize ≤ 75 ∧ s.utf8ByteSize ≤ 44 ∧ name = "factory/" ++ c ++ "/" ++ s := by
  rw [assembled_eq_ok_iff]
  constructor
  · rintro ⟨d, rfl, rfl, rfl⟩
    exact ⟨d.creator, d.subdenom, rfl, rfl, d.creator_noSlash, d.creator_length, d.subdenom_length,
      text_eq d⟩
  · rintro ⟨c, s, rfl, rfl, hslash, hcreator, hsubdenom, rfl⟩
    exact ⟨⟨c, s, hslash, hsubdenom, hcreator⟩, rfl, rfl, text_eq _⟩

/-- A name is that of one pair only. -/
theorem assembled_inj {creator' subdenom' : Text} (h : assembled creator subdenom = .ok name)
    (h' : assembled creator' subdenom' = .ok name) : creator = creator' ∧ subdenom = subdenom' := by
  obtain ⟨d, rfl, rfl, hname⟩ := assembled_eq_ok_iff.mp h
  obtain ⟨d', rfl, rfl, hname'⟩ := assembled_eq_ok_iff.mp h'
  obtain rfl : d = d' := text_inj.mp (hname.trans hname'.symm)
  exact ⟨rfl, rfl⟩

theorem assembled_of_illFormed (h : ¬ (creator.IsWellFormed ∧ subdenom.IsWellFormed)) :
    assembled creator subdenom = .error (.illFormed (candidate creator subdenom)) := by
  rw [assembled, lookup_of_illFormed (mt isWellFormed_candidate_iff.mp h)]
  rfl

/-- A pair is refused for the first rule that it breaks. -/
theorem decides_assembled (creator subdenom : String) :
    Decides (pairChecks creator subdenom)
      (assembled (ofString creator) (ofString subdenom)) := by
  have hrefused : ∀ flaw, ofParts creator subdenom = .error flaw → _ := fun _ => assembled_of_error
  rw [ofParts, canonicalText_eq] at hrefused
  refine decides_cons (fun hfails => hrefused _ ?_) fun hlength => ?_
  · have hother := of_decide_eq_false hfails
    rw [if_pos (by simp only [minLength, maxLength]; omega)]
  rw [if_neg (by have hname := of_decide_eq_true hlength; simp only [minLength, maxLength]; omega)]
    at hrefused
  refine decides_cons (fun hfails => hrefused _ ?_) fun hholds => ?_
  · rw [dif_pos (not_not.mp (of_decide_eq_false hfails))]
  have hslash : '/' ∉ creator.toList := of_decide_eq_true hholds
  rw [dif_neg hslash] at hrefused
  refine decides_cons (fun hfails => hrefused _ ?_) fun hholds => ?_
  · have hlong : maxSubdenomLength < subdenom.utf8ByteSize :=
      Nat.lt_of_not_le (of_decide_eq_false hfails)
    rw [dif_pos hlong]
  have hsubdenom : subdenom.utf8ByteSize ≤ maxSubdenomLength := of_decide_eq_true hholds
  rw [dif_neg (Nat.not_lt.mpr hsubdenom)] at hrefused
  refine decides_cons (fun hfails => hrefused _ ?_) fun hholds => ?_
  · have hlong : maxCreatorLength < creator.utf8ByteSize :=
      Nat.lt_of_not_le (of_decide_eq_false hfails)
    rw [dif_pos hlong]
  have hcreator : creator.utf8ByteSize ≤ maxCreatorLength := of_decide_eq_true hholds
  rw [assembled_eq_ok_iff_pair.mpr ⟨creator, subdenom, rfl, rfl, hslash, hcreator, hsubdenom, rfl⟩]
  exact decides_nil _

end Denom

namespace Registry

/-- Creations of the same name come from the same sender, and are of the same subdenom. -/
theorem pair_of_createDenom {r r' : Registry} {sender sender' : String} {subdenom subdenom' : Text}
    {metadata metadata' : Option Metadata} {receipt receipt' : Receipt}
    (h : (r.execute sender (.message (.createDenom subdenom metadata))).1 = .ok receipt)
    (h' : (r'.execute sender' (.message (.createDenom subdenom' metadata'))).1 = .ok receipt')
    (hname : receipt.attributes = receipt'.attributes) : sender = sender' ∧ subdenom = subdenom' := by
  obtain ⟨d, octets, hd, rfl, -⟩ := reply_of_createDenom (Prod.ext h rfl)
  obtain ⟨d', octets', hd', rfl, -⟩ := reply_of_createDenom (Prod.ext h' rfl)
  obtain rfl : d = d' := by simpa [Denom.text_inj] using hname
  obtain ⟨hcreator, rfl⟩ := Denom.lookup_eq_ok_iff.mp hd
  obtain ⟨hcreator', rfl⟩ := Denom.lookup_eq_ok_iff.mp hd'
  exact ⟨ofString_inj.mp (hcreator.trans hcreator'.symm), rfl⟩

end Registry

namespace Denom

/-- **A pair of parts makes a name just if it keeps its three rules, and no two pairs make the same.**
The limits for the whole name follow from those for the parts. So a name is created by one account
only, in whatever registry and with whatever separators in the subdenom. A pair that makes none is
refused in the name that it would make, and for the first rule that it breaks; but if a part has no
encoding, that is the fault, and it is about the same name. -/
theorem assembled_decided_by_pair :
    (∀ (creator subdenom : Text) (name : String), assembled creator subdenom = .ok name ↔
      ∃ c s : String, creator = ofString c ∧ subdenom = ofString s ∧ '/' ∉ c.toList ∧
        c.utf8ByteSize ≤ 75 ∧ s.utf8ByteSize ≤ 44 ∧ name = "factory/" ++ c ++ "/" ++ s) ∧
      (∀ c s : String, c.utf8ByteSize ≤ 75 → s.utf8ByteSize ≤ 44 →
        3 ≤ ("factory/" ++ c ++ "/" ++ s).utf8ByteSize ∧
          ("factory/" ++ c ++ "/" ++ s).utf8ByteSize ≤ 128) ∧
      (∀ (creator subdenom creator' subdenom' : Text) (name : String),
        assembled creator subdenom = .ok name → assembled creator' subdenom' = .ok name →
        creator = creator' ∧ subdenom = subdenom') ∧
      (∀ (r r' : Registry) (sender sender' : String) (subdenom subdenom' : Text)
        (metadata metadata' : Option Metadata) (receipt receipt' : Receipt),
        (r.execute sender (.message (.createDenom subdenom metadata))).1 = .ok receipt →
        (r'.execute sender' (.message (.createDenom subdenom' metadata'))).1 = .ok receipt' →
        receipt.attributes = receipt'.attributes → sender = sender' ∧ subdenom = subdenom') ∧
      (∀ c s : String, Decides (pairChecks c s) (assembled (ofString c) (ofString s))) ∧
      (∀ creator subdenom : Text, ¬ (creator.IsWellFormed ∧ subdenom.IsWellFormed) →
        assembled creator subdenom = .error (.illFormed (candidate creator subdenom))) ∧
      (∀ n : Nat, (Flaw.totalLength n).message =
        ofString s!"length must be between 3 and 128, was {n}") ∧
      Flaw.slashInCreator.message = ofString "creator must not contain '/'" ∧
      Flaw.longSubdenom.message = ofString "subdenom longer than 44 bytes" ∧
      Flaw.longCreator.message = ofString "creator longer than 75 bytes" :=
  ⟨fun _ _ _ => assembled_eq_ok_iff_pair, fun _ _ => utf8ByteSize_name_mem,
    fun _ _ _ _ _ => assembled_inj, fun _ _ _ _ _ _ _ _ _ _ => pair_of_createDenom,
    decides_assembled, fun _ _ => assembled_of_illFormed, fun _ => rfl, rfl, rfl, rfl⟩

/-- Both parts as long as they may be, with letters of three octets and separators in the second. -/
def widest : String × String :=
  (String.ofList (List.replicate 25 '€'), String.ofList (List.replicate 14 '€' ++ ['/', '/']))

/-- The widest name is accepted; with one octet more in the subdenom it is the whole that is too
long, unless there is a shorter creator, and a separator in the creator counts before either part. -/
theorem widest_name_accepted :
    (∃ name, assembled widest.1 widest.2 = .ok name ∧ name.utf8ByteSize = 128) ∧
      assembled widest.1 (ofString (widest.2 ++ "x")) =
        .error (.rejected (.invalidDenom
          (ofString ("factory/" ++ widest.1 ++ "/" ++ (widest.2 ++ "x"))) (.totalLength 129))) ∧
      assembled "a/b" (ofString (widest.2 ++ "x")) =
        .error (.rejected (.invalidDenom (ofString ("factory/a/b/" ++ (widest.2 ++ "x")))
          .slashInCreator)) := by
  obtain ⟨haccepts, -, -, -, hdecides, -⟩ := assembled_decided_by_pair
  have hname := (haccepts widest.1 widest.2 _).mpr
    ⟨widest.1, widest.2, rfl, rfl, by decide +kernel, by decide +kernel, by decide +kernel, rfl⟩
  refine ⟨⟨_, hname, by decide +kernel⟩, (hdecides _ _ _).mpr ?_, (hdecides _ _ _).mpr ?_⟩
  · decide +kernel
  · decide +kernel

/-- Not every pair that makes no name is refused for a rule: one that is half a character is not. -/
theorem torn_pair_not_rejected :
    ¬ ∀ (creator subdenom : Text) (fault : Fault), assembled creator subdenom = .error fault →
      ∃ flaw, fault = .rejected (.invalidDenom (candidate creator subdenom) flaw) := by
  intro hclaim
  have hfault : assembled torn "x" = .error (.illFormed (candidate torn "x")) := by decide
  obtain ⟨flaw, hflaw⟩ := hclaim _ _ _ hfault
  cases hflaw

end Denom

end Coinage
