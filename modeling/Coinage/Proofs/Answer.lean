import Coinage.Proofs.Execution
import Coinage.Registry.Answer

/-! Queries, answered by the book. A registry that keeps a book answers what is in it. -/

namespace Coinage

open Act Registry

namespace Book

/-- The denoms of a creator by their texts; only a `String` has created any. -/
def createdBy (b : Book) (creator : Text) : List Text :=
  match creator.toString? with
  | some c => (b.created c).map fun d => Text.ofString d.text
  | none => []

/-- What the book says to a query. -/
def reply (b : Book) : Query → Except Fault Answer
  | .fullDenom creator subdenom => do return .denom (← Denom.lookup creator subdenom).text
  | .metadata text => do return .metadata ((b.metadata (← Denom.parse text)).map Metadata.joined)
  | .admin text => do
    let d ← Denom.parse text
    match b.admin d with
    | some a => .ok (.admin a)
    | none => .error (.rejected (.unknownDenom d.text))
  | .denomsByCreator creator => .ok (.denoms (b.createdBy creator))
  | .params => .error (.rejected (.unimplemented "params query"))

end Book

namespace Registry

variable {r : Registry} {b : Book} (hkept : b.Kept r.store.contents)

include hkept

theorem answer_admin {text : Text} {d : Denom} (hd : Denom.parse text = .ok d) :
    (r.answer (.message (.admin text))).1 =
      match b.admin d with
      | some a => .ok (.admin a)
      | none => .error (.rejected (.unknownDenom d.text)) := by
  simp only [answer, look, on_bind, on_lift, hd, on_fetch, Book.admin_of_kept hkept,
    Except.mapError_ok]
  cases b.admin d <;> rfl

theorem metadata_of_kept (d : Denom) :
    Entry.metadata (r.store.contents.get? (Entry.metadataKey d)) =
      .ok ((b.metadata d).map Metadata.joined) := by
  have hstorable := hkept.storable d
  rw [hkept.metadata]
  cases hmetadata : b.metadata d with
  | none => rfl
  | some m =>
      rw [hmetadata] at hstorable
      rw [Option.map_some, Entry.metadata_metadataText (hstorable m rfl), Option.map_some]

theorem answer_metadata {text : Text} {d : Denom} (hd : Denom.parse text = .ok d) :
    (r.answer (.message (.metadata text))).1 =
      .ok (.metadata ((b.metadata d).map Metadata.joined)) := by
  simp only [answer, look, on_bind, on_lift, hd, on_fetch, metadata_of_kept hkept,
    Except.mapError_ok]
  rfl

theorem denoms_of_kept (creator : Text) :
    Entry.denoms (r.store.contents.get? (Entry.creatorKey creator)) =
      .ok (b.createdBy creator) := by
  rw [Book.createdBy]
  cases hcreator : creator.toString? with
  | some c => rw [Text.toString?_eq_some_iff.mp hcreator, hkept.created, Book.denoms_listText]
  | none =>
      cases hget : r.store.contents.get? (Entry.creatorKey creator) with
      | none => rfl
      | some text =>
          rcases hkept.key _ text hget with ⟨d, hkey⟩ | ⟨d, hkey⟩ | ⟨c, hkey⟩
          · exact absurd hkey.symm (Entry.adminKey_ne_creatorKey d creator)
          · exact absurd hkey.symm (Entry.metadataKey_ne_creatorKey d creator)
          · rw [Entry.creatorKey_inj.mp hkey, Text.toString?_ofString] at hcreator
            cases hcreator

theorem answer_denomsByCreator (creator : Text) :
    (r.answer (.message (.denomsByCreator creator))).1 = .ok (.denoms (b.createdBy creator)) := by
  simp only [answer, look, on_bind, on_lift, on_fetch, denoms_of_kept hkept, Except.mapError_ok]
  rfl

/-- **A registry that keeps a book answers what the book says.** -/
theorem answer_of_kept (query : Query) : (r.answer (.message query)).1 = b.reply query := by
  cases query with
  | fullDenom creator subdenom =>
      simp only [answer, look, on_lift_bind_fst]
      rfl
  | metadata text =>
      cases hd : Denom.parse text with
      | ok d =>
          rw [answer_metadata hkept hd, Book.reply, hd]
          rfl
      | error fault =>
          simp only [answer, look, on_lift_bind_fst, hd, Book.reply]
          rfl
  | admin text =>
      cases hd : Denom.parse text with
      | ok d => rw [answer_admin hkept hd, Book.reply, hd, Except.ok_bind]
      | error fault =>
          simp only [answer, look, on_lift_bind_fst, hd, Book.reply]
          rfl
  | denomsByCreator creator => exact answer_denomsByCreator hkept creator
  | params => rfl

end Registry

end Coinage
