import Coinage.Proofs.Base64
import Coinage.Proofs.Server.Run
import Coinage.Proofs.Wire.Reply

/-! What a client gets to see of what a message comes to. A receipt can always be sent, and so can
every answer but a record with texts that have no encoding. -/

namespace Coinage

open Registry

/-- A receipt as it is sent. -/
def Receipt.toJson (receipt : Receipt) : Json :=
  .obj [("method", .str receipt.method),
    ("attributes", .obj (receipt.attributes.map fun (name, text) => (.ofString name, .str text))),
    ("data", .ofOption (receipt.data.map fun octets => .ofString (Base64.encode octets)))]

/-- An answer as it is sent. -/
def Answer.toJson : Answer → Json
  | .denom d => .obj [("denom", .str d)]
  | .admin a => .obj [("admin", .str a)]
  | .denoms ds => .obj [("denoms", .ofTexts ds)]
  | .metadata none => .obj [("metadata", .null)]
  | .metadata (some m) => .obj [("metadata", m.toJson)]

theorem Receipt.isWritable_toJson (receipt : Receipt) : receipt.toJson.isWritable = true := by
  have hattributes : (Json.obj (receipt.attributes.map
      fun (name, text) => (Text.ofString name, Json.str text))).isWritable = true := by
    rw [Json.isWritable_obj_iff, List.forall_mem_map]
    exact fun a _ => ⟨Text.isWellFormed_ofString _, Json.isWritable_str_iff.mpr (by simp)⟩
  simp only [toJson, Json.isWritable_obj_iff, List.forall_mem_cons, hattributes]
  simp

theorem Metadata.inRange_joined {m : Metadata} (h : m.InRange) : m.joined.InRange := by
  intro u hu
  obtain ⟨u', hu', rfl⟩ := List.mem_map.mp hu
  exact h u' hu'

theorem Answer.isWritable_metadata_iff {m : Metadata} :
    (Answer.metadata (some m)).toJson.isWritable = true ↔ ∀ t ∈ m.allTexts, t.IsWellFormed := by
  simp [toJson, Metadata.isWritable_toJson_iff]

namespace Book

variable {b : Book} {query : Query}

/-- A record that is answered is in the book, with neighbouring surrogates joined. -/
theorem exists_metadata_of_reply {m : Metadata} (h : b.reply query = .ok (.metadata (some m))) :
    ∃ d m', b.metadata d = some m' ∧ m = m'.joined := by
  cases query with
  | metadata text =>
      obtain ⟨d, -, h⟩ := Except.bind_eq_ok_iff.mp h
      cases hm : b.metadata d with
      | none =>
          rw [hm] at h
          cases h
      | some m' =>
          rw [hm] at h
          cases h
          exact ⟨d, m', hm, rfl⟩
  | fullDenom creator subdenom =>
      obtain ⟨d, -, h⟩ := Except.bind_eq_ok_iff.mp h
      cases h
  | admin text =>
      obtain ⟨d, -, h⟩ := Except.bind_eq_ok_iff.mp h
      cases ha : b.admin d <;> rw [ha] at h <;> cases h
  | denomsByCreator | params => cases h

/-- Only a record can have texts that cannot be sent. -/
theorem isWritable_of_reply {answer : Answer} (h : b.reply query = .ok answer)
    (hanswer : ∀ m, answer ≠ .metadata (some m)) : answer.toJson.isWritable = true := by
  cases query with
  | metadata text =>
      obtain ⟨d, -, h⟩ := Except.bind_eq_ok_iff.mp h
      cases h
      cases hm : b.metadata d with
      | none => rfl
      | some m =>
          rw [hm] at hanswer
          exact absurd rfl (hanswer m.joined)
  | fullDenom creator subdenom =>
      obtain ⟨d, -, h⟩ := Except.bind_eq_ok_iff.mp h
      cases h
      simp [Answer.toJson]
  | admin text =>
      obtain ⟨d, -, h⟩ := Except.bind_eq_ok_iff.mp h
      cases ha : b.admin d <;> rw [ha] at h <;> cases h
      simp [Answer.toJson]
  | denomsByCreator creator =>
      cases h
      simp only [Answer.toJson, Json.isWritable_obj_iff, List.forall_mem_cons,
        Json.isWritable_ofTexts_iff, createdBy]
      split <;> simp
  | params => cases h

end Book

/-- An answer can be sent unless it is a record with texts that have no encoding. -/
theorem Registry.isWritable_of_answer {P : Metadata → Prop} {r : Registry} (hkeeps : r.KeepsOnly P)
    {query : Query} {answer : Answer} (h : (r.answer (.message query)).1 = .ok answer)
    (hwell : ∀ m, answer = .metadata (some m) → ∀ t ∈ m.allTexts, t.IsWellFormed) :
    answer.toJson.isWritable = true := by
  obtain ⟨b, hkept, -⟩ := hkeeps
  rw [answer_of_kept hkept] at h
  by_cases hrecord : ∃ m, answer = .metadata (some m)
  · obtain ⟨m, rfl⟩ := hrecord
    exact Answer.isWritable_metadata_iff.mpr (hwell m rfl)
  · exact Book.isWritable_of_reply h fun m hm => hrecord ⟨m, hm⟩

namespace Server

open Response

theorem isPresentable_iff {m : Metadata} : isPresentable m = true ↔ m.InRange := by
  simp [isPresentable, Metadata.InRange]

theorem ofReceipt_eq (receipt : Receipt) : ofReceipt receipt = ⟨200, .json receipt.toJson⟩ := by
  change Response.ok receipt.toJson = _
  rw [Response.ok, if_pos receipt.isWritable_toJson]

theorem ofAnswer_eq {answer : Answer} (h : ∀ m, answer = .metadata (some m) → m.InRange) :
    ofAnswer answer = Response.ok answer.toJson := by
  cases answer with
  | metadata metadata =>
      cases metadata with
      | none => rfl
      | some m => exact if_pos (isPresentable_iff.mpr (h m rfl))
  | denom | admin | denoms => rfl

/-- A fault that is no refusal shows no more than that there was one. -/
theorem ofFault_of_not_isRefusal {fault : Fault} (h : ¬ fault.IsRefusal) :
    ofFault fault = internalError := by
  cases fault with
  | rejected rejection => exact absurd (.rejected rejection) h
  | ledger e =>
      cases e with
      | insufficientFunds holding balance amount => exact absurd (.insufficientFunds _ _ _) h
      | overlong | noHolding => rfl
  | _ => rfl

end Server

end Coinage
