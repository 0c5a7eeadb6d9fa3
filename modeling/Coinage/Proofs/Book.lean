import Coinage.Proofs.Entry
import Coinage.Proofs.Transaction
import Coinage.Registry.Execute

/-! The book of a registry: who the admin of a denom is, what is said about it, and who has created
which denoms. A store keeps a book if it has a text for everything in the book, and nothing else.
A book is all that it takes to judge a command: what is wrong with it, or which deed it comes to. -/

namespace Coinage

open Entry Registry

@[ext]
structure Book where
  admin : Denom → Option String
  metadata : Denom → Option Metadata
  /-- The denoms of a creator in the order in which they came. -/
  created : String → List Denom

/-- What a command does that succeeds. -/
inductive Deed where
  | created (d : Denom) (metadata : Option Metadata)
  | handedOver (d : Denom) (newAdmin : String)
  | described (d : Denom) (metadata : Metadata)
  | moved (m : Ledger.Movement)
deriving DecidableEq

namespace Book

def empty : Book := ⟨fun _ => none, fun _ => none, fun _ => []⟩

instance : EmptyCollection Book := ⟨empty⟩

def setAdmin (b : Book) (d : Denom) (admin : String) : Book :=
  { b with admin := fun d' => if d' = d then some admin else b.admin d' }

def setMetadata (b : Book) (d : Denom) (m : Metadata) : Book :=
  { b with metadata := fun d' => if d' = d then some m else b.metadata d' }

/-- Puts a denom at the end of the list of its creator. -/
def list (b : Book) (d : Denom) : Book :=
  { b with created := fun c => if c = d.creator then b.created c ++ [d] else b.created c }

def enter (b : Book) : Deed → Book
  | .created d none => (b.setAdmin d d.creator).list d
  | .created d (some m) => ((b.setAdmin d d.creator).list d).setMetadata d m
  | .handedOver d newAdmin => b.setAdmin d newAdmin
  | .described d m => b.setMetadata d m
  | .moved _ => b

@[simp] theorem admin_enter_created (b : Book) (d d' : Denom) (metadata : Option Metadata) :
    (b.enter (.created d metadata)).admin d' = if d' = d then some d.creator else b.admin d' := by
  cases metadata <;> rfl

@[simp] theorem metadata_enter_created (b : Book) (d d' : Denom) (metadata : Option Metadata) :
    (b.enter (.created d metadata)).metadata d' =
      if d' = d then metadata.or (b.metadata d') else b.metadata d' := by
  cases metadata with
  | none => simp [enter, list, setAdmin]
  | some m => rfl

@[simp] theorem created_enter_created (b : Book) (d : Denom) (metadata : Option Metadata)
    (c : String) : (b.enter (.created d metadata)).created c =
      if c = d.creator then b.created c ++ [d] else b.created c := by
  cases metadata <;> rfl

/-- Metadata that can be stored, if there are any. -/
def Storable (metadata : Option Metadata) : Prop :=
  ∀ m ∈ metadata, Entry.isWritable Json.Limits.standard.digits m = true

/-- The list of a creator as it is stored; an empty one is not. -/
def listText : List Denom → Option String
  | [] => none
  | ds => some (denomsText (ds.map fun d => Text.ofString d.text))

/-- The rows that a deed adds to the store, or puts in the place of others. -/
def rows (b : Book) : Deed → List (Text × String)
  | .created d metadata =>
    (adminKey d, adminText d.creator) ::
    (creatorKey d.creator,
      denomsText ((b.created d.creator ++ [d]).map fun d => Text.ofString d.text)) ::
    metadata.toList.map fun m => (metadataKey d, metadataText m)
  | .handedOver d newAdmin => [(adminKey d, adminText newAdmin)]
  | .described d m => [(metadataKey d, metadataText m)]
  | .moved _ => []

/-- A store that holds what is in the book. -/
structure Kept (b : Book) (contents : Table Text String) : Prop where
  admin : ∀ d, contents.get? (adminKey d) = (b.admin d).map fun a => adminText (Text.ofString a)
  metadata : ∀ d, contents.get? (metadataKey d) = (b.metadata d).map metadataText
  created : ∀ c : String, contents.get? (creatorKey c) = listText (b.created c)
  storable : ∀ d, Storable (b.metadata d)
  key : ∀ key text, contents.get? key = some text →
    (∃ d, key = adminKey d) ∨ (∃ d, key = metadataKey d) ∨ ∃ c : String, key = creatorKey c

theorem kept_empty : (∅ : Book).Kept ∅ where
  admin _ := rfl
  metadata _ := rfl
  created _ := rfl
  storable _ _ h := by cases h
  key _ _ h := by cases h

variable {b : Book} {contents : Table Text String}

/-- One more row for the admin of a denom. -/
theorem Kept.insert_admin (h : b.Kept contents) (d : Denom) (a : String) :
    (b.setAdmin d a).Kept (contents.insert (adminKey d) (adminText a)) where
  admin d' := by
    simp only [Table.get?_insert, adminKey_inj, h.admin, setAdmin]
    split <;> rfl
  metadata d' := by
    rw [Table.get?_insert, if_neg (adminKey_ne_metadataKey d d').symm, h.metadata]
    rfl
  created c := by
    rw [Table.get?_insert, if_neg (adminKey_ne_creatorKey d c).symm, h.created]
    rfl
  storable := h.storable
  key key text hget := by
    rw [Table.get?_insert] at hget
    split at hget
    · next heq => exact .inl ⟨d, heq⟩
    · exact h.key key text hget

theorem Kept.insert_metadata (h : b.Kept contents) (d : Denom) {m : Metadata}
    (hm : Storable (some m)) :
    (b.setMetadata d m).Kept (contents.insert (metadataKey d) (metadataText m)) where
  admin d' := by
    rw [Table.get?_insert, if_neg (adminKey_ne_metadataKey d' d), h.admin]
    rfl
  metadata d' := by
    simp only [Table.get?_insert, metadataKey_inj, h.metadata, setMetadata]
    split <;> rfl
  created c := by
    rw [Table.get?_insert, if_neg (metadataKey_ne_creatorKey d c).symm, h.created]
    rfl
  storable d' := by
    simp only [setMetadata]
    split
    · exact hm
    · exact h.storable d'
  key key text hget := by
    rw [Table.get?_insert] at hget
    split at hget
    · next heq => exact .inr (.inl ⟨d, heq⟩)
    · exact h.key key text hget

theorem Kept.insert_created (h : b.Kept contents) (d : Denom) :
    (b.list d).Kept (contents.insert (creatorKey d.creator)
      (denomsText ((b.created d.creator ++ [d]).map fun d => Text.ofString d.text))) where
  admin d' := by
    rw [Table.get?_insert, if_neg (adminKey_ne_creatorKey d' d.creator), h.admin]
    rfl
  metadata d' := by
    rw [Table.get?_insert, if_neg (metadataKey_ne_creatorKey d' d.creator), h.metadata]
    rfl
  created c' := by
    simp only [Table.get?_insert, creatorKey_inj, Text.ofString_inj, h.created, list]
    split
    · next heq =>
        rw [heq]
        cases b.created d.creator <;> rfl
    · rfl
  storable := h.storable
  key key text hget := by
    rw [Table.get?_insert] at hget
    split at hget
    · next heq => exact .inr (.inr ⟨d.creator, heq⟩)
    · exact h.key key text hget

/-- A deed that can be written down. -/
def CanEnter : Deed → Prop
  | .created _ metadata => Storable metadata
  | .described _ m => Storable (some m)
  | _ => True

/-- What deeds have to do with what exists: a denom is created once, and it has to be there to be
handed over or described. -/
def Permits (b : Book) : Deed → Prop
  | .created d _ => b.admin d = none
  | .handedOver d _ | .described d _ => b.admin d ≠ none
  | .moved _ => True

/-- **A store that holds the rows of a deed besides a book keeps the book with the deed.** -/
theorem Kept.enter (h : b.Kept contents) {deed : Deed} (hdeed : CanEnter deed) :
    (b.enter deed).Kept (contents.insertAll (b.rows deed)) := by
  cases deed with
  | created d metadata =>
      have hlisted := (h.insert_admin d d.creator).insert_created d
      cases metadata with
      | none => exact hlisted
      | some m => exact hlisted.insert_metadata d hdeed
  | handedOver d newAdmin => exact h.insert_admin d newAdmin
  | described d m => exact h.insert_metadata d hdeed
  | moved m => exact h

end Book

end Coinage
