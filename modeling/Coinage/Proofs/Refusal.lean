import Coinage.Proofs.Form
import Coinage.Proofs.Precedence

/-! What a registry that keeps a book refuses commands and queries for. If the numbers of a command are
in range and nobody is in debt, then whatever is wrong with it is something that its sender can be
told: no amount turns out to be negative or too long, no holding to be missing, no stored text to be
unreadable. Other faults come only of a store that does not give its locks, and of texts without an
encoding. -/

namespace Coinage

open Registry Coinage.Except

/-! ### The texts of messages -/

def DenomUnit.allTexts (u : DenomUnit) : List Text := u.denom :: u.aliases

def Metadata.allTexts (m : Metadata) : List Text :=
  m.description.toList ++ m.units.flatMap DenomUnit.allTexts ++ m.base.toList ++ m.display.toList ++
    m.name.toList ++ m.symbol.toList

def Command.allTexts : Command → List Text
  | .createDenom subdenom metadata => subdenom :: metadata.toList.flatMap Metadata.allTexts
  | .changeAdmin denom newAdmin => [denom, newAdmin]
  | .mintTokens denom _ recipient => [denom, recipient]
  | .burnTokens denom _ holder => [denom, holder]
  | .forceTransfer denom _ source target => [denom, source, target]
  | .setMetadata denom m => denom :: m.allTexts

def Query.allTexts : Query → List Text
  | .fullDenom creator subdenom => [creator, subdenom]
  | .metadata denom | .admin denom => [denom]
  | .denomsByCreator creator => [creator]
  | .params => []

namespace Json

@[simp] theorem isWritableText_iff {t : Text} : isWritableText t = true ↔ t.IsWellFormed := Iff.rfl

@[simp] theorem isWritable_str_iff {t : Text} : (Json.str t).isWritable = true ↔ t.IsWellFormed := by
  rw [isWritable, isWritableText_iff]

@[simp] theorem isWritable_num (n : Int) : (Json.num n).isWritable = true := rfl

@[simp] theorem isWritable_null : Json.null.isWritable = true := rfl

@[simp] theorem isWritable_arr_iff {vs : List Json} :
    (Json.arr vs).isWritable = true ↔ ∀ v ∈ vs, v.isWritable = true := by
  rw [isWritable]
  induction vs with
  | nil => simp [allWritable]
  | cons v r ih => simp [allWritable, ih]

@[simp] theorem isWritable_obj_iff {ms : List (Text × Json)} :
    (Json.obj ms).isWritable = true ↔ ∀ m ∈ ms, m.1.IsWellFormed ∧ m.2.isWritable = true := by
  rw [isWritable]
  induction ms with
  | nil => simp [membersWritable]
  | cons m r ih => simp [membersWritable, ih]

@[simp] theorem isWritable_ofTexts_iff {ts : List Text} :
    (ofTexts ts).isWritable = true ↔ ∀ t ∈ ts, t.IsWellFormed := by
  simp [ofTexts]

@[simp] theorem isWritable_ofOption_iff {t : Option Text} :
    (ofOption t).isWritable = true ↔ ∀ t' ∈ t.toList, t'.IsWellFormed := by
  cases t <;> simp [ofOption]

end Json

theorem DenomUnit.isWritable_toJson_iff {u : DenomUnit} :
    u.toJson.isWritable = true ↔ ∀ t ∈ u.allTexts, t.IsWellFormed := by
  simp only [toJson, Json.isWritable_obj_iff, List.forall_mem_cons, Text.isWellFormed_ofString,
    Json.isWritable_ofTexts_iff, Json.isWritable_str_iff, Json.isWritable_num, allTexts]
  simp [and_comm]

/-- A record can be answered with if its texts have encodings. -/
theorem Metadata.isWritable_toJson_iff {m : Metadata} :
    m.toJson.isWritable = true ↔ ∀ t ∈ m.allTexts, t.IsWellFormed := by
  simp only [toJson, Json.isWritable_obj_iff, List.forall_mem_cons, Text.isWellFormed_ofString,
    Json.isWritable_ofOption_iff, Json.isWritable_arr_iff, List.forall_mem_map,
    DenomUnit.isWritable_toJson_iff, allTexts, List.forall_mem_append, List.forall_mem_flatMap]
  grind

/-! ### Refusals -/

/-- A fault whose reason the sender is told. -/
inductive Fault.IsRefusal : Fault → Prop
  | rejected (rejection : Rejection) : IsRefusal (.rejected rejection)
  | insufficientFunds (holding : Holding) (balance amount : Int) :
      IsRefusal (.ledger (.insufficientFunds holding balance amount))

/-- What can be wrong with a message that has these texts. A rejection shows nothing without an
encoding that is not in one of them. -/
inductive Fault.Concerns (failing : Bool) (texts : List Text) : Fault → Prop
  | rejected {rejection : Rejection}
      (h : (∀ t ∈ texts, t.IsWellFormed) → rejection.message.IsWellFormed) :
      Concerns failing texts (.rejected rejection)
  | insufficientFunds (holding : Holding) (balance amount : Int) :
      Concerns failing texts (.ledger (.insufficientFunds holding balance amount))
  | illFormed (name : Text) (h : ∃ t ∈ texts, ¬ t.IsWellFormed) :
      Concerns failing texts (.illFormed name)
  | commandFailed (h : failing = true) : Concerns failing texts .commandFailed

theorem Fault.Concerns.isWellFormed_message {failing : Bool} {texts : List Text} {rejection : Rejection}
    (h : Fault.Concerns failing texts (.rejected rejection)) (htexts : ∀ t ∈ texts, t.IsWellFormed) :
    rejection.message.IsWellFormed := by
  cases h with
  | rejected h => exact h htexts

/-- Nothing is wrong with texts that have encodings, and with a store that gives its locks, but what
the sender is told. -/
theorem Fault.Concerns.isRefusal {texts : List Text} {fault : Fault}
    (h : Fault.Concerns false texts fault) (htexts : ∀ t ∈ texts, t.IsWellFormed) :
    fault.IsRefusal := by
  cases h with
  | rejected => exact .rejected _
  | insufficientFunds => exact .insufficientFunds _ _ _
  | illFormed name hill =>
      obtain ⟨t, ht, hill⟩ := hill
      exact absurd (htexts t ht) hill
  | commandFailed h => cases h

namespace Denom

variable {creator subdenom text : Text} {flaw : Flaw}

theorem isWellFormed_message_of_ofParts {creator subdenom : String}
    (h : ofParts creator subdenom = .error flaw) : flaw.message.IsWellFormed := by
  simp only [ofParts] at h
  split_ifs at h <;> cases h <;> exact Text.isWellFormed_ofString _

/-- What is said about a text shows no more than is in it. -/
theorem isWellFormed_message_of_refuses (h : Refuses Denom.lookup text flaw)
    (htext : text.IsWellFormed) : flaw.message.IsWellFormed := by
  cases h with
  | partCount => exact Text.isWellFormed_ofString _
  | @wrongPrefix first creator subdenom hsplits =>
      rw [hsplits.text, assemble] at htext
      simp only [Text.isWellFormed_append_iff] at htext
      exact Text.isWellFormed_append_iff.mpr ⟨Text.isWellFormed_ofString _, htext.1.1.1.1⟩
  | parts _ _ hlookup =>
      rcases lookup_eq_error_iff.mp hlookup with ⟨c, s, flaw, -, -, hparts, heq⟩ | ⟨-, heq⟩
      · cases heq
        exact isWellFormed_message_of_ofParts hparts
      · cases heq
  | refused _ _ hlookup hother =>
      rcases lookup_eq_error_iff.mp hlookup with ⟨c, s, flaw, -, -, hparts, heq⟩ | ⟨-, heq⟩
      · cases heq
        exact absurd rfl (hother _ _)
      · cases heq

theorem isWellFormed_message_invalidDenom (htext : text.IsWellFormed)
    (hflaw : flaw.message.IsWellFormed) : (Rejection.invalidDenom text flaw).message.IsWellFormed := by
  simp only [Rejection.message, Text.isWellFormed_append_iff, Text.isWellFormed_ofString, htext, hflaw,
    and_self]

end Denom

namespace Registry

variable {failing : Bool} {texts : List Text} {t : Text}

theorem concerns_ofString {rejection : Rejection} {s : String}
    (h : rejection.message = Text.ofString s) :
    Fault.Concerns failing texts (.rejected rejection) :=
  .rejected fun _ => h ▸ Text.isWellFormed_ofString s

theorem concerns_invalidAddress (ht : t ∈ texts) (reason : String) :
    Fault.Concerns failing texts (.rejected (.invalidAddress t reason)) :=
  .rejected fun htexts => by simp [Rejection.message, htexts t ht]

theorem failsOnly_lookup {creator subdenom : Text}
    (h : (∀ t ∈ texts, t.IsWellFormed) → (Denom.candidate creator subdenom).IsWellFormed) :
    FailsOnly (Fault.Concerns failing texts) (Denom.lookup creator subdenom) := by
  intro fault hfault
  rcases Denom.lookup_eq_error_iff.mp hfault with ⟨c, s, flaw, -, -, hparts, rfl⟩ | ⟨hill, rfl⟩
  · exact .rejected fun htexts => Denom.isWellFormed_message_invalidDenom (h htexts)
      (Denom.isWellFormed_message_of_ofParts hparts)
  · refine .illFormed _ ?_
    by_contra hnone
    simp only [not_exists, not_and, not_not] at hnone
    exact hill (h hnone)

theorem failsOnly_parse (ht : t ∈ texts) :
    FailsOnly (Fault.Concerns failing texts) (Denom.parse t) := by
  intro fault hfault
  rcases Denom.parse_eq_error_iff.mp hfault with ⟨flaw, hflaw, rfl⟩ | ⟨_, _, _, -, -, hill, rfl⟩
  · exact .rejected fun htexts => Denom.isWellFormed_message_invalidDenom (htexts t ht)
      (Denom.isWellFormed_message_of_refuses hflaw (htexts t ht))
  · exact .illFormed _ ⟨t, ht, hill⟩

theorem failsOnly_addressOf (ht : t ∈ texts) :
    FailsOnly (Fault.Concerns failing texts) (addressOf t) := by
  rw [addressOf]
  split
  · exact failsOnly_ok _
  · exact failsOnly_error (concerns_invalidAddress ht _)

theorem failsOnly_checkAmount {n : Int} (hn : 0 ≤ n) :
    FailsOnly (Fault.Concerns failing texts) (checkAmount n) := by
  rw [checkAmount]
  split
  · exact failsOnly_error (concerns_ofString rfl)
  · rw [if_neg (Int.not_lt.mpr hn)]
    exact failsOnly_ok _

end Registry

namespace Ledger

/-- Who is not in debt can be told what there is, and what there should be. -/
theorem shortage_of_inRange {balance amount : Int} (hbalance : 0 ≤ balance) (hless : balance < amount)
    (hamount : amount ≤ Form.maxAmount) (holding : Holding) :
    shortage holding balance amount = .insufficientFunds holding balance amount := by
  have hmost : Form.maxAmount.natAbs < 10 ^ Numeral.maxDigits := by decide +kernel
  rw [shortage_eq, if_pos]
  omega

/-- There is always a holding to take a positive amount from, or too little in it. -/
theorem failsOnly_debit {failing : Bool} {texts : List Text} {l : Ledger} {holding : Holding} {n : Int}
    (hn : 0 < n)
    (hmost : n ≤ Form.maxAmount) (hbalance : 0 ≤ l.balance holding) :
    FailsOnly (fun e => Fault.Concerns failing texts (.ledger e)) (l.debit holding n) := by
  intro e he
  obtain ⟨hless, rfl⟩ := (debit_eq_error_iff hn).mp he
  rw [shortage_of_inRange hbalance hless hmost]
  exact .insufficientFunds _ _ _

end Ledger

/-- Exponents in range are short enough to be stored. -/
theorem Metadata.InRange.storable {m : Metadata} (h : m.InRange) : Book.Storable (some m) := by
  intro m' hm'
  cases hm'
  refine List.all_eq_true.mpr fun u hu => Numeral.isWritable_iff.mpr ?_
  obtain ⟨hnonneg, hle⟩ := h u hu
  have hless : u.exponent.natAbs ≤ Form.maxExponent.natAbs := by omega
  have hmost : Form.maxExponent.natAbs < 10 ^ Numeral.maxDigits := by decide +kernel
  exact hless.trans_lt hmost

namespace Book

variable {b : Book} {failing : Bool} {ledger : Ledger} {sender : String} {texts : List Text}

theorem failsOnly_authorize (d : Denom) :
    FailsOnly (Fault.Concerns failing texts) (b.authorize sender d) := by
  rw [authorize]
  split
  · exact failsOnly_error (concerns_ofString rfl)
  · split
    · exact failsOnly_error (concerns_ofString rfl)
    · exact failsOnly_ok _

theorem failsOnly_checkWritable {metadata : Option Metadata} (h : ∀ m ∈ metadata, m.InRange) :
    FailsOnly (Fault.Concerns failing texts) (checkWritable metadata) := by
  have hok : checkWritable metadata = .ok () := checkWritable_eq_ok_iff.mpr fun m hm =>
    (h m hm).storable m rfl
  rw [hok]
  exact failsOnly_ok _

theorem failsOnly_checkCreation {d : Denom} {metadata : Option Metadata}
    (h : ∀ m ∈ metadata, m.InRange) :
    FailsOnly (Fault.Concerns failing texts) (b.checkCreation d metadata) := by
  rw [checkCreation]
  cases b.admin d with
  | none => exact failsOnly_checkWritable h
  | some admin => exact failsOnly_error (concerns_ofString rfl)

theorem failsOnly_newAdminOf {t : Text} (ht : t ∈ texts) :
    FailsOnly (Fault.Concerns failing texts) (newAdminOf t) := by
  rw [newAdminOf]
  split
  · exact failsOnly_ok _
  · exact failsOnly_addressOf ht

theorem failsOnly_authorizeMovement {t : Text} (ht : t ∈ texts) {n : Int} (hn : 0 ≤ n) :
    FailsOnly (Fault.Concerns failing texts) (b.authorizeMovement sender t n) :=
  (failsOnly_checkAmount hn).bind fun _ _ => (failsOnly_parse ht).bind fun d _ =>
    (failsOnly_authorize d).bind fun _ _ => failsOnly_ok _

theorem failsOnly_checkLocks : FailsOnly (Fault.Concerns failing texts) (checkLocks failing) := by
  cases failing with
  | true => exact failsOnly_error (.commandFailed rfl)
  | false => exact failsOnly_ok ()

theorem failsOnly_settle {m : Ledger.Movement}
    (h : FailsOnly (fun e => Fault.Concerns failing texts (.ledger e)) (ledger.apply m)) :
    FailsOnly (Fault.Concerns failing texts) (settle ledger m) :=
  FailsOnly.map (.mapError h)

/-- **A command is refused for a reason that its sender is told,** unless one of its texts has no
encoding or the store does not give its locks. -/
theorem failsOnly_judge {command : Command} (h : command.InRange)
    (hledger : ∀ holding, 0 ≤ ledger.balance holding) :
    FailsOnly (Fault.Concerns failing command.allTexts) (b.judge failing ledger sender command) := by
  obtain ⟨hamount, hmetadata⟩ := h
  cases command with
  | createDenom subdenom metadata =>
      refine (failsOnly_lookup fun htexts => ?_).bind fun _ _ => failsOnly_checkLocks.bind fun _ _ =>
        (failsOnly_checkCreation hmetadata).bind fun _ _ => failsOnly_ok _
      exact Denom.isWellFormed_candidate_iff.mpr
        ⟨Text.isWellFormed_ofString sender, htexts _ List.mem_cons_self⟩
  | changeAdmin text newAdmin =>
      exact (failsOnly_parse (by simp [Command.allTexts])).bind fun d _ =>
        failsOnly_checkLocks.bind fun _ _ => (failsOnly_authorize d).bind fun _ _ =>
        (failsOnly_newAdminOf (by simp [Command.allTexts])).bind fun _ _ => failsOnly_ok _
  | mintTokens text n recipient =>
      exact (failsOnly_authorizeMovement (by simp [Command.allTexts]) (hamount n rfl).1).bind
        fun d _ => (failsOnly_addressOf (by simp [Command.allTexts])).bind fun _ _ =>
        failsOnly_settle (failsOnly_ok _)
  | burnTokens text n holder =>
      refine (failsOnly_authorizeMovement (by simp [Command.allTexts]) (hamount n rfl).1).bind
        fun d hd => ?_
      have hsettle : FailsOnly (Fault.Concerns failing (Command.burnTokens text n holder).allTexts)
          (settle ledger (.burn d.text n sender)) :=
        failsOnly_settle (Ledger.failsOnly_debit (authorizeMovement_eq_ok_iff.mp hd).1
          (hamount n rfl).2 (hledger _))
      split
      · exact hsettle
      · exact (failsOnly_error (concerns_invalidAddress (by simp [Command.allTexts]) _)).bind
          fun _ _ => hsettle
  | forceTransfer text n source target =>
      refine (failsOnly_authorizeMovement (by simp [Command.allTexts]) (hamount n rfl).1).bind
        fun d hd => (failsOnly_addressOf (by simp [Command.allTexts])).bind fun _ _ =>
        (failsOnly_addressOf (by simp [Command.allTexts])).bind fun _ _ => ?_
      exact failsOnly_settle (Ledger.failsOnly_debit (authorizeMovement_eq_ok_iff.mp hd).1
        (hamount n rfl).2 (hledger _)).map
  | setMetadata text m =>
      exact (failsOnly_parse (by simp [Command.allTexts])).bind fun d _ =>
        failsOnly_checkLocks.bind fun _ _ => (failsOnly_authorize d).bind fun _ _ =>
        (failsOnly_checkWritable hmetadata).bind fun _ _ => failsOnly_ok _

/-- **A query is refused for a reason that is told,** unless one of its texts has no encoding. -/
theorem failsOnly_reply (query : Query) :
    FailsOnly (Fault.Concerns failing query.allTexts) (b.reply query) := by
  cases query with
  | fullDenom creator subdenom =>
      refine (failsOnly_lookup fun htexts => ?_).bind fun _ _ => failsOnly_ok _
      exact Denom.isWellFormed_candidate_iff.mpr ⟨htexts _ (by simp [Query.allTexts]),
        htexts _ (by simp [Query.allTexts])⟩
  | metadata text =>
      exact (failsOnly_parse (by simp [Query.allTexts])).bind fun _ _ => failsOnly_ok _
  | admin text =>
      refine (failsOnly_parse (by simp [Query.allTexts])).bind fun d _ => ?_
      cases b.admin d with
      | none => exact failsOnly_error (concerns_ofString rfl)
      | some a => exact failsOnly_ok _
  | denomsByCreator creator => exact failsOnly_ok _
  | params => exact failsOnly_error (concerns_ofString rfl)

end Book

namespace Registry

variable {r : Registry} {b : Book} (hkept : b.Kept r.store.contents)

include hkept

theorem failsOnly_execute (hledger : ∀ holding, 0 ≤ r.ledger.balance holding) {sender : String}
    {command : Command} (h : command.InRange) :
    FailsOnly (Fault.Concerns r.store.commandsFail command.allTexts)
      (r.execute sender (.message command)).1 := by
  rw [(execute_of_kept hkept sender command).1]
  exact (Book.failsOnly_judge h hledger).map

/-- A query takes no locks. -/
theorem failsOnly_answer (query : Query) :
    FailsOnly (Fault.Concerns false query.allTexts) (r.answer (.message query)).1 := by
  rw [answer_of_kept hkept]
  exact Book.failsOnly_reply query

end Registry

end Coinage
