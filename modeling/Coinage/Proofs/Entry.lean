import Mathlib.Data.List.Forall2
import Coinage.Proofs.Denom
import Coinage.Proofs.Json.Reading
import Coinage.Proofs.Text.WellFormed
import Coinage.Json.Writable
import Coinage.Registry.Entry

/-! Stored texts, read again. What the registry writes for an admin, for a list of denoms and for the
metadata of a denom is read as just that, but for surrogates that stood next to each other. -/

namespace Coinage

/-- The unit as it comes back after it was stored. -/
def DenomUnit.joined (u : DenomUnit) : DenomUnit :=
  ⟨u.denom.joined, u.exponent, u.aliases.map Text.joined⟩

/-- The record as it comes back after it was stored. -/
def Metadata.joined (m : Metadata) : Metadata where
  description := m.description.map Text.joined
  units := m.units.map DenomUnit.joined
  base := m.base.map Text.joined
  display := m.display.map Text.joined
  name := m.name.map Text.joined
  symbol := m.symbol.map Text.joined

/-! ### Texts without surrogates -/

theorem Text.joined_of_isWritableText {t : Text} (h : Json.isWritableText t = true) :
    t.joined = t := by
  obtain ⟨s, hs⟩ := Option.isSome_iff_exists.mp h
  rw [toString?_eq_some_iff.mp hs, joined_ofString]

theorem Text.map_joined_of_allWritable {ts : List Text}
    (h : Json.allWritable (ts.map .str) = true) : ts.map Text.joined = ts := by
  induction ts with
  | nil => rfl
  | cons t r ih =>
      rw [List.map_cons, Json.allWritable, Json.isWritable, Bool.and_eq_true] at h
      rw [List.map_cons, joined_of_isWritableText h.1, ih h.2]

theorem Text.map_joined_of_ofOption {t : Option Text}
    (h : (Json.ofOption t).isWritable = true) : t.map Text.joined = t := by
  cases t with
  | none => rfl
  | some t => rw [Option.map_some, joined_of_isWritableText h]

theorem DenomUnit.joined_of_isWritable {u : DenomUnit} (h : u.toJson.isWritable = true) :
    u.joined = u := by
  simp only [toJson, Json.isWritable, Json.membersWritable, Json.ofTexts, Bool.and_eq_true] at h
  obtain ⟨⟨-, haliases⟩, ⟨-, hdenom⟩, -⟩ := h
  rw [joined, Text.joined_of_isWritableText hdenom, Text.map_joined_of_allWritable haliases]

/-- A record that can be answered with is stored without loss. -/
theorem Metadata.joined_of_isWritable {m : Metadata} (h : m.toJson.isWritable = true) :
    m.joined = m := by
  have hunits : ∀ us : List DenomUnit, Json.allWritable (us.map DenomUnit.toJson) = true →
      us.map DenomUnit.joined = us := by
    intro us
    induction us with
    | nil => exact fun _ => rfl
    | cons u r ih =>
        intro hus
        rw [List.map_cons, Json.allWritable, Bool.and_eq_true] at hus
        rw [List.map_cons, DenomUnit.joined_of_isWritable hus.1, ih hus.2]
  simp only [toJson, Json.isWritable, Json.membersWritable, Bool.and_eq_true] at h
  obtain ⟨⟨-, hbase⟩, ⟨-, hlist⟩, ⟨-, hdescription⟩, ⟨-, hdisplay⟩, ⟨-, hname⟩, ⟨-, hsymbol⟩, -⟩ := h
  rw [joined, Text.map_joined_of_ofOption hbase, hunits m.units hlist,
    Text.map_joined_of_ofOption hdescription, Text.map_joined_of_ofOption hdisplay,
    Text.map_joined_of_ofOption hname, Text.map_joined_of_ofOption hsymbol]

/-! ### Records of texts -/

namespace Json

theorem compactItems_eq_map (vs : List Json) : compactItems vs = vs.map compactChars := by
  induction vs with
  | nil => rfl
  | cons v r ih => rw [compactItems, ih, List.map_cons]

theorem compactMembers_eq_map (ms : List (Text × Json)) :
    compactMembers ms = ms.map fun m => (m.1, compactChars m.2) := by
  induction ms with
  | nil => rfl
  | cons m r ih => rw [compactMembers, ih, List.map_cons]

theorem reads_ofTexts (ts : List Text) :
    Reads 1 (compactChars (ofTexts ts)) (ofTexts (ts.map Text.joined)) := by
  have hitems : List.Forall₂ (Reads 0) (compactItems (ts.map .str))
      ((ts.map Text.joined).map .str) := by
    induction ts with
    | nil => exact .nil
    | cons t r ih => exact .cons (reads_quoted t) ih
  exact reads_array hitems

theorem reads_ofOption (t : Option Text) :
    Reads 0 (compactChars (ofOption t)) (ofOption (t.map Text.joined)) := by
  cases t with
  | none => exact reads_null
  | some t => exact reads_quoted t

/-- Members with the same name, the second of which is what the first is read as. -/
def FieldReads (depth : Nat) (m m' : Text × Json) : Prop :=
  ∃ name : String, m.1 = name ∧ m'.1 = name ∧ Reads depth (compactChars m.2) m'.2

/-- What a record is read as whose fields are written in the order of their names. -/
theorem reads_record {depth : Nat} {ms ms' : List (Text × Json)}
    (hordered : (ms.map Prod.fst).Pairwise (compare · · = .lt))
    (h : List.Forall₂ (FieldReads depth) ms ms') :
    Reads (depth + 1) (compactChars (.obj ms)) (.obj ms') := by
  have hwritten : (Table.ofList (compactMembers ms)).entries = compactMembers ms := by
    refine Table.entries_ofList ?_
    rw [List.pairwise_map] at hordered
    rw [compactMembers_eq_map, List.pairwise_map]
    exact hordered
  have hreads : List.Forall₂ (MemberReads depth) (compactMembers ms) ms' := by
    rw [compactMembers_eq_map, List.forall₂_map_left_iff]
    refine h.imp fun m m' hfield => ?_
    obtain ⟨name, hname, hname', hread⟩ := hfield
    exact ⟨by rw [hname, hname', Text.joined_ofString], hread⟩
  have hkeys : ms'.map Prod.fst = ms.map Prod.fst := by
    clear hordered hwritten hreads
    induction h with
    | nil => rfl
    | cons hfield hrest ih =>
        obtain ⟨name, hname, hname', -⟩ := hfield
        rw [List.map_cons, List.map_cons, ih, hname, hname']
  have hnodup : (ms'.map Prod.fst).Nodup := by
    rw [hkeys]
    refine hordered.imp fun hless heq => ?_
    subst heq
    simp at hless
  have hobject := reads_object hreads hnodup
  rw [compactChars, hwritten]
  exact hobject

theorem reads_member {depth : Nat} {key : String} {v v' : Json} (h : Reads depth (compactChars v) v') :
    Reads (depth + 1) (compactChars (.obj [(key, v)])) (.obj [(key, v')]) :=
  reads_record (List.pairwise_singleton _ _) (.cons ⟨key, rfl, rfl, h⟩ .nil)

theorem reads_unit {u : DenomUnit}
    (hu : (Nat.toDigits 10 u.exponent.natAbs).length ≤ Limits.standard.digits) :
    Reads 2 (compactChars u.toJson) u.joined.toJson := by
  have hordered : (["aliases", "denom", "exponent"].map Text.ofString).Pairwise
      (compare · · = .lt) := by decide
  exact reads_record hordered <|
    .cons ⟨"aliases", rfl, rfl, reads_ofTexts u.aliases⟩ <|
    .cons ⟨"denom", rfl, rfl, (reads_quoted u.denom).mono (by decide)⟩ <|
    .cons ⟨"exponent", rfl, rfl, (reads_decimal hu).mono (by decide)⟩ .nil

theorem reads_metadata {m : Metadata}
    (hm : Entry.isWritable Limits.standard.digits m = true) :
    Reads 4 (compactChars m.toJson) m.joined.toJson := by
  have hordered : (["base", "denom_units", "description", "display", "name", "symbol"].map
      Text.ofString).Pairwise (compare · · = .lt) := by decide
  have hunits : Reads 3 (compactChars (.arr (m.units.map DenomUnit.toJson)))
      (.arr ((m.units.map DenomUnit.joined).map DenomUnit.toJson)) := by
    refine reads_array ?_
    rw [compactItems_eq_map, List.map_map, List.map_map, List.forall₂_map_left_iff,
      List.forall₂_map_right_iff, List.forall₂_same]
    intro u hu
    exact reads_unit (of_decide_eq_true (List.all_eq_true.mp hm u hu))
  have htext : ∀ t : Option Text, Reads 3 (compactChars (ofOption t))
      (ofOption (t.map Text.joined)) := fun t => (reads_ofOption t).mono (by decide)
  exact reads_record hordered <|
    .cons ⟨"base", rfl, rfl, htext m.base⟩ <|
    .cons ⟨"denom_units", rfl, rfl, hunits⟩ <|
    .cons ⟨"description", rfl, rfl, htext m.description⟩ <|
    .cons ⟨"display", rfl, rfl, htext m.display⟩ <|
    .cons ⟨"name", rfl, rfl, htext m.name⟩ <|
    .cons ⟨"symbol", rfl, rfl, htext m.symbol⟩ .nil

end Json

theorem Metadata.mapM_text?_str (ts : List Text) : (ts.map Json.str).mapM text? = some ts := by
  induction ts with
  | nil => rfl
  | cons t r ih =>
      rw [List.map_cons, List.mapM_cons, ih]
      rfl

theorem Metadata.texts_ofTexts (ts : List Text) : texts (some (Json.ofTexts ts)) = .ok ts := by
  simp only [texts, Json.ofTexts, mapM_text?_str]

theorem Metadata.optionalText_ofOption (t : Option Text) :
    optionalText (some (Json.ofOption t)) = .ok t := by
  cases t <;> rfl

theorem DenomUnit.ofJson_toJson (u : DenomUnit) : ofJson u.toJson = .ok u := by
  change (DenomUnit.mk u.denom u.exponent) <$> Metadata.texts (some (Json.ofTexts u.aliases)) = _
  rw [Metadata.texts_ofTexts]
  rfl

theorem Metadata.ofJson_toJson (m : Metadata) : ofJson m.toJson = .ok m := by
  have hunits : ∀ us : List DenomUnit,
      (us.map DenomUnit.toJson).mapM DenomUnit.ofJson = .ok us := by
    intro us
    induction us with
    | nil => rfl
    | cons u r ih =>
        rw [List.map_cons, List.mapM_cons, ih, DenomUnit.ofJson_toJson]
        rfl
  change (do
    let units ← (m.units.map DenomUnit.toJson).mapM DenomUnit.ofJson
    let description ← optionalText (some (Json.ofOption m.description))
    let base ← optionalText (some (Json.ofOption m.base))
    let display ← optionalText (some (Json.ofOption m.display))
    let name ← optionalText (some (Json.ofOption m.name))
    let symbol ← optionalText (some (Json.ofOption m.symbol))
    return ⟨description, units, base, display, name, symbol⟩) = Except.ok m
  simp only [hunits, optionalText_ofOption]
  rfl

namespace Text

theorem append_left_inj {s t u : Text} : s ++ t = s ++ u ↔ t = u := by
  cases s
  cases t
  cases u
  change mk _ = mk _ ↔ _
  rw [mk.injEq, List.append_cancel_left_eq, mk.injEq]

end Text

namespace Entry

open Json

/-! ### Keys -/

theorem adminKey_inj {d d' : Denom} : adminKey d = adminKey d' ↔ d = d' := by
  rw [adminKey, adminKey, Text.append_left_inj, Text.ofString_inj, Denom.text_inj]

theorem metadataKey_inj {d d' : Denom} : metadataKey d = metadataKey d' ↔ d = d' := by
  rw [metadataKey, metadataKey, Text.append_left_inj, Text.ofString_inj, Denom.text_inj]

theorem creatorKey_inj {c c' : Text} : creatorKey c = creatorKey c' ↔ c = c' :=
  Text.append_left_inj

/-- The three kinds of keys begin with different letters. -/
private theorem ne_of_head {s t u v : Text} {a b : Text.Element} {r r' : List Text.Element}
    (hs : s.elements = a :: r) (ht : t.elements = b :: r') (hab : a ≠ b) : s ++ u ≠ t ++ v := by
  intro heq
  have helements : s.elements ++ u.elements = t.elements ++ v.elements :=
    congrArg Text.elements heq
  rw [hs, ht, List.cons_append, List.cons_append, List.cons.injEq] at helements
  exact hab helements.1

theorem adminKey_ne_metadataKey (d d' : Denom) : adminKey d ≠ metadataKey d' :=
  ne_of_head rfl rfl (by decide)

theorem adminKey_ne_creatorKey (d : Denom) (c : Text) : adminKey d ≠ creatorKey c :=
  ne_of_head rfl rfl (by decide)

theorem metadataKey_ne_creatorKey (d : Denom) (c : Text) : metadataKey d ≠ creatorKey c :=
  ne_of_head rfl rfl (by decide)

/-! ### Values -/

/-- An admin is read as it was written, as far as its neighbours stay apart. -/
theorem admin_adminText (t : Text) : admin (some (adminText t)) = .ok (some t.joined) := by
  have hread : Json.parse (adminText t) = .ok (.str t.joined) := (reads_quoted t).parse (by decide)
  rw [admin, parse, hread]
  rfl

theorem adminText_inj {s t : String} :
    adminText (Text.ofString s) = adminText (Text.ofString t) ↔ s = t := by
  refine ⟨fun h => ?_, fun h => congrArg (fun s => adminText (Text.ofString s)) h⟩
  have hread := admin_adminText (Text.ofString s)
  rw [h, admin_adminText, Text.joined_ofString, Text.joined_ofString, Except.ok.injEq,
    Option.some.injEq, Text.ofString_inj] at hread
  exact hread.symm

theorem denoms_denomsText (ts : List Text) :
    denoms (some (denomsText ts)) = .ok (ts.map Text.joined) := by
  have hread : Json.parse (denomsText ts) = .ok (ofTexts (ts.map Text.joined)) :=
    (reads_ofTexts ts).parse (by decide)
  simp only [denoms, parse, hread, ofTexts, Except.mapError, bind, Except.bind,
    Metadata.mapM_text?_str]

theorem metadata_metadataText {m : Metadata} (h : isWritable Limits.standard.digits m = true) :
    metadata (some (metadataText m)) = .ok (some m.joined) := by
  have hread : Json.parse (metadataText m) = .ok m.joined.toJson :=
    (reads_metadata h).parse (by decide)
  rw [metadata, parse, hread]
  change some <$> (Metadata.ofJson m.joined.toJson).mapError Flaw.metadata = _
  rw [Metadata.ofJson_toJson]
  rfl

end Entry

end Coinage
