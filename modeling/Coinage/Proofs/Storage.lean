import Coinage.Proofs.Chronicle
import Coinage.Proofs.Isolation
import Coinage.Proofs.Json.Printing

/-! The values that are kept as texts: admins, lists of denoms and records. A text has printable
characters only, is read as the value that it was written for, and is what this value is written as
again. Two surrogates that make up a character come back as that character, and a record with an
exponent of too many digits is not written at all; nothing else is lost, whatever is in the texts of a
value. So what a transaction has committed is what is loaded after it. -/

namespace Coinage

open Json Listing Script

namespace Json

/-! ### Joined texts are written as before -/

theorem compactChars_ofTexts_joined (ts : List Text) :
    compactChars (ofTexts (ts.map Text.joined)) = compactChars (ofTexts ts) := by
  have hitems : compactItems ((ts.map Text.joined).map .str) = compactItems (ts.map .str) := by
    rw [compactItems_eq_map, compactItems_eq_map]
    simp only [List.map_map]
    exact List.map_congr_left fun t _ => quoted_joined t
  rw [ofTexts, ofTexts, compactChars, compactChars, hitems]

theorem compactChars_ofOption_joined (t : Option Text) :
    compactChars (ofOption (t.map Text.joined)) = compactChars (ofOption t) := by
  cases t with
  | none => rfl
  | some t => exact quoted_joined t

/-- Objects are written alike whose members have the same keys and are written alike. -/
theorem compactChars_obj_congr {ms ms' : List (Text × Json)}
    (h : List.Forall₂ (fun m m' => m.1 = m'.1 ∧ compactChars m.2 = compactChars m'.2) ms ms') :
    compactChars (.obj ms) = compactChars (.obj ms') := by
  have hmembers : compactMembers ms = compactMembers ms' := by
    induction h with
    | nil => rfl
    | cons hm _ ih =>
        rw [compactMembers, compactMembers, hm.1, hm.2, ih]
  rw [compactChars, compactChars, hmembers]

end Json

theorem DenomUnit.compactChars_joined (u : DenomUnit) :
    compactChars u.joined.toJson = compactChars u.toJson :=
  compactChars_obj_congr <|
    .cons ⟨rfl, compactChars_ofTexts_joined u.aliases⟩ <|
    .cons ⟨rfl, quoted_joined u.denom⟩ <|
    .cons ⟨rfl, rfl⟩ .nil

theorem Metadata.compactChars_joined (m : Metadata) :
    compactChars m.joined.toJson = compactChars m.toJson := by
  have hitems : compactItems ((m.units.map DenomUnit.joined).map DenomUnit.toJson) =
      compactItems (m.units.map DenomUnit.toJson) := by
    rw [compactItems_eq_map, compactItems_eq_map]
    simp only [List.map_map]
    exact List.map_congr_left fun u _ => u.compactChars_joined
  have hunits : compactChars (.arr ((m.units.map DenomUnit.joined).map DenomUnit.toJson)) =
      compactChars (.arr (m.units.map DenomUnit.toJson)) := by
    rw [compactChars, compactChars, hitems]
  exact compactChars_obj_congr <|
    .cons ⟨rfl, compactChars_ofOption_joined m.base⟩ <|
    .cons ⟨rfl, hunits⟩ <|
    .cons ⟨rfl, compactChars_ofOption_joined m.description⟩ <|
    .cons ⟨rfl, compactChars_ofOption_joined m.display⟩ <|
    .cons ⟨rfl, compactChars_ofOption_joined m.name⟩ <|
    .cons ⟨rfl, compactChars_ofOption_joined m.symbol⟩ .nil

namespace Entry

/-! ### Values -/

/-- A value that is kept as a text. -/
inductive Value where
  | admin (admin : Text)
  | denoms (denoms : List Text)
  | metadata (metadata : Metadata)
deriving DecidableEq, Repr

namespace Value

def toJson : Value → Json
  | .admin t => .str t
  | .denoms ts => .ofTexts ts
  | .metadata m => m.toJson

/-- The text that the value is kept as. -/
def text (v : Value) : String := v.toJson.compact

/-- The value as it comes back after it was stored. -/
def joined : Value → Value
  | .admin t => .admin t.joined
  | .denoms ts => .denoms (ts.map Text.joined)
  | .metadata m => .metadata m.joined

/-- Whether the value can be written: no exponent has more digits than are allowed in a text. -/
def Writable : Value → Prop
  | .admin _ | .denoms _ => True
  | .metadata m => ∀ u ∈ m.units, (Nat.toDigits 10 u.exponent.natAbs).length ≤ 4300

inductive Kind where
  | admin
  | denoms
  | metadata
deriving DecidableEq, Repr

def kind : Value → Kind
  | .admin _ => .admin
  | .denoms _ => .denoms
  | .metadata _ => .metadata

/-- The keys under which values of a kind are kept. -/
def Kind.IsKey (key : Text) : Kind → Prop
  | .admin => ∃ d, key = adminKey d
  | .denoms => ∃ creator, key = creatorKey creator
  | .metadata => ∃ d, key = metadataKey d

/-- What is loaded where a value of a kind is expected. -/
def Kind.load (stored : Option String) : Kind → Except Flaw (Option Value)
  | .admin => (·.map Value.admin) <$> Entry.admin stored
  | .denoms => (some ∘ Value.denoms) <$> Entry.denoms stored
  | .metadata => (·.map Value.metadata) <$> Entry.metadata stored

variable {v : Value}

theorem writable_metadata_iff {m : Metadata} :
    (Value.metadata m).Writable ↔ Entry.isWritable Limits.standard.digits m = true := by
  rw [Entry.isWritable, List.all_eq_true]
  simp only [Numeral.isWithin, decide_eq_true_eq]
  rfl

theorem reads (hv : v.Writable) : Reads 4 (compactChars v.toJson) v.joined.toJson := by
  cases v with
  | admin t => exact (reads_quoted t).mono (by decide)
  | denoms ts => exact (reads_ofTexts ts).mono (by decide)
  | metadata m => exact reads_metadata (writable_metadata_iff.mp hv)

theorem parse_text (hv : v.Writable) : Json.parse v.text = .ok v.joined.toJson :=
  (reads hv).parse (by decide)

theorem printable_text (v : Value) : Printable v.text.toList := by
  rw [text, compact, String.toList_ofList]
  exact printable_compactChars v.toJson

/-- What comes back is written as the text that it comes from. -/
theorem text_joined (v : Value) : v.joined.text = v.text := by
  refine congrArg String.ofList ?_
  cases v with
  | admin t => exact quoted_joined t
  | denoms ts => exact compactChars_ofTexts_joined ts
  | metadata m => exact m.compactChars_joined

/-- Nothing is different about a value whose texts all have an encoding. -/
theorem joined_of_isWritable (h : v.toJson.isWritable = true) : v.joined = v := by
  cases v with
  | admin t => exact congrArg Value.admin (Text.joined_of_isWritableText h)
  | denoms ts => exact congrArg Value.denoms (Text.map_joined_of_allWritable h)
  | metadata m => exact congrArg Value.metadata (Metadata.joined_of_isWritable h)

theorem load_text (hv : v.Writable) : v.kind.load (some v.text) = .ok (some v.joined) := by
  cases v with
  | admin t =>
      change (·.map Value.admin) <$> Entry.admin (some (adminText t)) = _
      rw [admin_adminText]
      rfl
  | denoms ts =>
      change (some ∘ Value.denoms) <$> Entry.denoms (some (denomsText ts)) = _
      rw [denoms_denomsText]
      rfl
  | metadata m =>
      change (·.map Value.metadata) <$> Entry.metadata (some (metadataText m)) = _
      rw [metadata_metadataText (writable_metadata_iff.mp hv)]
      rfl

/-- What is loaded after a transaction that has left the text of a value behind. -/
theorem load_of_transact {ε α : Type} {s : Store} {contents : Table Text String} {failing : Bool}
    {locks : List Text} {script : Script ε α} {a : α} {events : List Script.Event} {key : Text}
    (hs : s.Settled contents failing) (hdone : (s.transact locks script).1 = .ok a)
    (hfaithful : Faithful contents events) (hleads : Leads events script (.done a))
    (hlast : latest? key (assigned events) = some v.text) (hv : v.Writable) :
    v.kind.load ((s.transact locks script).2.get key).1 = .ok (some v.joined) := by
  obtain ⟨-, hcommitted⟩ :=
    (hs.transact_of_leads (hs.works_of_ok hdone) hfaithful hleads).1 a rfl
  rw [Store.get_fst, hcommitted, hlast, Option.some_or, load_text hv]

/-- Whatever is kept by a registry, it is a value that was written under a key for its kind. -/
theorem exists_of_kept {b : Book} {contents : Table Text String} (h : b.Kept contents) {key : Text}
    {text : String} (hget : contents.get? key = some text) :
    ∃ v : Value, v.Writable ∧ v.kind.IsKey key ∧ text = v.text := by
  rcases h.key key text hget with ⟨d, rfl⟩ | ⟨d, rfl⟩ | ⟨c, rfl⟩
  · rw [h.admin] at hget
    obtain ⟨a, -, rfl⟩ := Option.map_eq_some_iff.mp hget
    exact ⟨.admin a, trivial, ⟨d, rfl⟩, rfl⟩
  · rw [h.metadata] at hget
    obtain ⟨m, hm, rfl⟩ := Option.map_eq_some_iff.mp hget
    exact ⟨.metadata m, writable_metadata_iff.mpr (h.storable d m hm), ⟨d, rfl⟩, rfl⟩
  · rw [h.created] at hget
    cases hcreated : b.created c with
    | nil =>
        rw [hcreated] at hget
        cases hget
    | cons d ds =>
        rw [hcreated] at hget
        cases hget
        exact ⟨.denoms _, trivial, ⟨c, rfl⟩, rfl⟩

end Value

/-- **What is kept of a value is the value.** Its text is read as it, with those surrogates joined that
make up a character; it has printable characters only, and is what the reading is written as again.
Nothing is joined in a value whose texts all have an encoding. The text that a transaction has left
under a key is loaded from there. A registry keeps texts of values and no others, and a record with an
exponent that is too long is not written. -/
theorem values_kept_as_texts :
    (∀ v : Value, v.Writable →
      Json.parse v.text = .ok v.joined.toJson ∧
        (∀ c ∈ v.text.toList, 0x20 ≤ c.toNat ∧ c.toNat ≤ 0x7E) ∧
        (∀ decoded, Json.parse v.text = .ok decoded → decoded.compact = v.text) ∧
        (v.toJson.isWritable = true → v.joined = v)) ∧
      (∀ {ε α : Type} {s : Store} {contents : Table Text String} {failing : Bool},
        s.Settled contents failing → ∀ (locks : List Text) (script : Script ε α) (a : α)
          (events : List Script.Event), (s.transact locks script).1 = .ok a →
          Faithful contents events → Leads events script (.done a) →
          ∀ (key : Text) (v : Value), latest? key (assigned events) = some v.text → v.Writable →
            v.kind.load ((s.transact locks script).2.get key).1 = .ok (some v.joined)) ∧
      (∀ r : Registry, r.Reachable → ∀ key text, r.store.contents.get? key = some text →
        ∃ v : Value, v.Writable ∧ v.kind.IsKey key ∧ text = v.text) ∧
      ∀ (d : Denom) (m : Metadata), ¬ (Value.metadata m).Writable →
        metadataRows d (some m) = .error (.unread (.tooManyDigits 4300 none)) := by
  refine ⟨fun v hv => ⟨Value.parse_text hv, v.printable_text, ?_, Value.joined_of_isWritable⟩, ?_, ?_, ?_⟩
  · intro decoded hdecoded
    rw [Value.parse_text hv] at hdecoded
    cases hdecoded
    exact v.text_joined
  · intro ε α s contents failing hs locks script a events hdone hfaithful hleads key v hlast hv
    exact Value.load_of_transact hs hdone hfaithful hleads hlast hv
  · intro r hr key text hget
    obtain ⟨deeds, hkeeps⟩ := hr.exists_keeps
    exact Value.exists_of_kept hkeeps.kept hget
  · intro d m hm
    rw [Value.writable_metadata_iff] at hm
    exact if_neg hm

open Registry

/-- A record with an odd description and a large and a negative exponent. -/
def odd : Value := .metadata {
  description := some "a \"\\\n\x7fµ😀"
  units := [⟨"µgold", -6, ["", "/"]⟩, ⟨"gold", 10 ^ 30, []⟩]
  base := some ""
  display := none
  name := none
  symbol := none }

theorem odd_kept :
    Json.parse odd.text = .ok odd.toJson ∧
      odd.kind.load (((Store.memory ∅).transact [] (ofSteps [.write [("k", odd.text)]])).2.get "k").1 =
        .ok (some odd) ∧
      (∃ v : Value, v.Writable ∧ v.kind.IsKey "admin:factory/alice/gold" ∧ "\"bob\"" = v.text) ∧
      metadataRows ⟨"alice", "gold", by decide, by decide, by decide⟩ (some overlong) =
        .error (.unread (.tooManyDigits 4300 none)) := by
  have hwritable : odd.Writable := Value.writable_metadata_iff.mpr (by decide +kernel)
  have hsame : odd.joined = odd := (values_kept_as_texts.1 odd hwritable).2.2.2 (by decide +kernel)
  have hread := (values_kept_as_texts.1 odd hwritable).1
  rw [hsame] at hread
  have hsettled : (Store.memory ∅).Settled ∅ false := ⟨rfl, rfl, rfl⟩
  have hfaithful : Faithful ∅ [.stage [("k", odd.text)]] := (faithful_nil ∅).concat _ trivial
  have hleads : Leads [.stage [("k", odd.text)]] (ofSteps [.write [("k", odd.text)]]) (.done []) :=
    leads_ofSteps (.cons (.stage _) .nil)
  have hdone := ((hsettled.transact_of_leads (.inr rfl) hfaithful hleads).1 [] rfl).1
  have hload := values_kept_as_texts.2.1 hsettled [] _ [] _ hdone hfaithful hleads "k" odd
    (by simp [assigned, Event.assignments, latest?]) hwritable
  rw [hsame] at hload
  have hreachable : ((start ∅).after handovers).Reachable := (Reachable.start rfl).after handovers
  refine ⟨hread, hload, values_kept_as_texts.2.2.1 _ hreachable _ _ (by decide +kernel),
    values_kept_as_texts.2.2.2 _ overlong fun hoverlong => ?_⟩
  rw [Value.writable_metadata_iff, isWritable_of_long List.mem_cons_self (by decide) rfl] at hoverlong
  cases hoverlong

/-- Not every value comes back as it was, and not every record is written. -/
theorem torn_and_overlong_not_kept :
    (¬ ∀ v : Value, Json.parse v.text = .ok v.toJson) ∧
      (¬ ∀ v : Value, v.kind.load (some v.text) = .ok (some v)) ∧
      ¬ ∀ (d : Denom) (m : Metadata), ∃ rows, metadataRows d (some m) = .ok rows := by
  have hwritable : (Value.metadata torn).Writable := fun _ hu => by cases hu
  have hdiffers : torn.joined ≠ torn := by decide
  refine ⟨fun hreads => ?_, fun hloads => ?_, fun hwrites => ?_⟩
  · have hread := hreads (.metadata torn)
    rw [Value.parse_text hwritable, Except.ok.injEq] at hread
    have hrecords : Metadata.ofJson torn.joined.toJson = Metadata.ofJson torn.toJson :=
      congrArg Metadata.ofJson hread
    rw [Metadata.ofJson_toJson, Metadata.ofJson_toJson, Except.ok.injEq] at hrecords
    exact hdiffers hrecords
  · have hload := hloads (.metadata torn)
    rw [Value.load_text hwritable, Except.ok.injEq, Option.some.injEq] at hload
    exact hdiffers (Value.metadata.inj hload)
  · obtain ⟨rows, hrows⟩ := hwrites ⟨"alice", "gold", by decide, by decide, by decide⟩ overlong
    have hlong : isWritable Limits.standard.digits overlong = false :=
      isWritable_of_long List.mem_cons_self (by decide) rfl
    rw [metadataRows, hlong] at hrows
    cases hrows

end Entry

end Coinage
